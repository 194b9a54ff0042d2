import InnerLoop.Operation.WatchLoop
import InnerLoop.Proofs.RoundTrip
import InnerLoop.Proofs.Transcript

/-!
# What a watch pushes, round by round

A watch looks at the files again and again, and whenever something has changed since the scan that
it remembers, it pushes the changes. It remembers the scan of a push that succeeded, so that a push
that fails is made up for by the next one. But it also remembers the scan of a push that failed for
the local files, and so forgets what else had changed by then.

- `Round`, `Rounds`: what a watch does in one round, and all of its rounds in a transcript.
- `lastScan`: the scan of the last round of some sort.
- `watchRounds_rounds`: the batches of a watch, by induction over its rounds.
- `watch_pushes_iff`: **what is in a batch**, and when it is all that was not pushed yet.
- `watch_forgets_changes`: a change that is not in a batch, and was not pushed.
-/

namespace InnerLoop

/-! ## Rounds -/

/-- One round of a watch that saw the files. -/
structure Round where
  /-- What was seen. -/
  scan : Snapshot
  /-- What was pushed. -/
  batch : List Location
  /-- How the push ended, if there was one and the watch was not cut off before its end. -/
  outcome : Option (Except Failure Manifest) := none

namespace Round

/-- The push of the round succeeded. -/
def succeeds (r : Round) : Bool :=
  match r.outcome with
  | some (.ok _) => true
  | _ => false

/-- The push of the round failed for the local files. -/
def blamesFiles (r : Round) : Bool :=
  match r.outcome with
  | some (.error f) => f.kind = .malformed
  | _ => false

/-- The push of the round is not made up for by the next one. -/
def settles (r : Round) : Bool := r.succeeds || r.blamesFiles

end Round

/-- What was seen of the files, look by look. -/
def scans (d : List Exchange) : List Snapshot :=
  d.filterMap fun
    | ⟨.scan _, .ok scan⟩ => some scan
    | _ => none

theorem scans_append (d₁ d₂ : List Exchange) : scans (d₁ ++ d₂) = scans d₁ ++ scans d₂ :=
  List.filterMap_append

/-- A transcript consists of some rounds, in each of which the files are seen and then a batch is
sent, if there is one. -/
inductive Rounds (send : List Path → Operation Manifest) : List Exchange → List Round → Prop
  /-- The files are not seen again. -/
  | over {d : List Exchange} (h : scans d = []) : Rounds send d []
  /-- There is nothing to be sent. -/
  | quiet {d₁ d₂ : List Exchange} {scan : Snapshot} {rest : List Round}
      (hlook : scans d₁ = [scan]) (hrest : Rounds send d₂ rest) :
      Rounds send (d₁ ++ d₂) (⟨scan, [], none⟩ :: rest)
  | pushed {d₁ d₂ d₃ : List Exchange} {scan : Snapshot} {batch : List Location}
      {outcome : Except Failure Manifest} {rest : List Round} (hlook : scans d₁ = [scan])
      (hbatch : batch ≠ [])
      (hsend : Transcript (send (batch.map Path.ofNames)).run d₂ (some outcome))
      (hrest : Rounds send d₃ rest) :
      Rounds send (d₁ ++ (d₂ ++ d₃)) (⟨scan, batch, some outcome⟩ :: rest)
  /-- The watch is cut off while a batch is sent. -/
  | pushing {d₁ d₂ : List Exchange} {scan : Snapshot} {batch : List Location}
      (hlook : scans d₁ = [scan]) (hbatch : batch ≠ [])
      (hsend : Transcript (send (batch.map Path.ofNames)).run d₂ none) :
      Rounds send (d₁ ++ d₂) [⟨scan, batch, none⟩]

/-- A transcript consists of a first look at the files and some rounds. -/
def IsWatch (send : List Path → Operation Manifest) (d : List Exchange) (first : Snapshot)
    (rounds : List Round) : Prop :=
  ∃ d₁ d₂, d = d₁ ++ d₂ ∧ scans d₁ = [first] ∧ Rounds send d₂ rounds

/-- The scan of the last of some rounds that `p` holds of; the one before all rounds if there is
none. -/
def lastScan (p : Round → Bool) (first : Snapshot) (rounds : List Round) : Snapshot :=
  ((rounds.reverse.find? p).map Round.scan).getD first

theorem lastScan_cons (p : Round → Bool) (first : Snapshot) (r : Round) (rounds : List Round) :
    lastScan p first (r :: rounds) = lastScan p (if p r then r.scan else first) rounds := by
  unfold lastScan
  rw [List.reverse_cons, List.find?_append]
  cases rounds.reverse.find? p with
  | some x => rfl
  | none => cases hp : p r <;> simp [hp]

/-- If the last round that settled anything succeeded, it is the last one that succeeded. -/
theorem lastScan_settles {first : Snapshot} {rounds : List Round}
    (h : ∀ x ∈ rounds.reverse.find? Round.settles, x.succeeds = true) :
    lastScan Round.settles first rounds = lastScan Round.succeeds first rounds := by
  have hfind : ∀ l : List Round, (∀ x ∈ l.find? Round.settles, x.succeeds = true) →
      l.find? Round.settles = l.find? Round.succeeds := by
    intro l
    induction l with
    | nil => exact fun _ => rfl
    | cons r rest ih =>
      intro hl
      by_cases hr : r.settles = true
      · rw [List.find?_cons_of_pos hr] at hl ⊢
        rw [List.find?_cons_of_pos (hl r rfl)]
      · have hsucceeds : ¬ r.succeeds = true := fun hs => hr (by rw [Round.settles, hs]; rfl)
        rw [List.find?_cons_of_neg hr] at hl ⊢
        rw [List.find?_cons_of_neg hsucceeds]
        exact ih hl
  rw [lastScan, lastScan, hfind _ h]

/-! ## One round -/

section Loop

variable {send : List Path → Operation Manifest} {root : Path} {interval due : Nat}
  {previous : Snapshot} {d : List Exchange}

/-- What a watch asks to see the files, when it looks at the time `due`. -/
def look (root : Path) (due : Nat) : Program (Nat × Except FileFault Snapshot) :=
  (Program.question (.sleepUntil due)).bind fun _ =>
    (Program.question .now).bind fun now =>
      (Program.question (.scan root)).bind fun r =>
        (Program.question .pause).bind fun _ => .done (now, r)

/-- How a watch goes on once it has looked. -/
def afterLook (send : List Path → Operation Manifest) (root : Path) (interval rounds due : Nat)
    (previous : Snapshot) :
    Nat × Except FileFault Snapshot → Program (Except CommandFault Unit)
  | (_, .error fault) => .done (.error (.io fault))
  | (now, .ok current) =>
    match current.changesSince previous with
    | [] => (watchRounds send root interval rounds (nextTick interval due now) previous).run
    | changed => (send (changed.map Path.ofNames)).run.bind fun r =>
      (watchRounds send root interval rounds (nextTick interval due now)
        (snapshotAfterPush previous current r)).run

theorem watchRounds_succ (rounds : Nat) :
    (watchRounds send root interval (rounds + 1) due previous).run =
      (look root due).bind (afterLook send root interval rounds due previous) := by
  rw [watchRounds]
  refine congrArg (Program.ask (.sleepUntil due)) (funext fun _ => ?_)
  refine congrArg (Program.ask .now) (funext fun now => ?_)
  refine congrArg (Program.ask (.scan root)) (funext fun r => ?_)
  refine congrArg (Program.ask .pause) (funext fun _ => ?_)
  cases r with
  | error fault => rfl
  | ok current =>
    show ExceptT.run (match current.changesSince previous with | [] => _ | changed => _) =
      afterLook send root interval rounds due previous (now, .ok current)
    cases hc : current.changesSince previous with
    | nil => simp only [afterLook, hc]
    | cons l changed =>
      simp only [afterLook, hc]
      exact Program.bind_assoc (send ((l :: changed).map Path.ofNames)).run _ _

/-- A look sees the files once, or it is cut off or fails before. -/
theorem look_cases {res : Option (Nat × Except FileFault Snapshot)}
    (h : Transcript (look root due) d res) :
    (scans d = [] ∧ ∀ a ∈ res, ∃ fault, a.2 = .error fault) ∨
      ∃ scan, scans d = [scan] ∧ ∀ a ∈ res, a.2 = .ok scan := by
  rcases Transcript.ask_cases (r := .sleepUntil due) h with ⟨rfl, rfl⟩ | ⟨_, d, rfl, hnow⟩
  · exact .inl ⟨rfl, fun _ ha => nomatch ha⟩
  rcases Transcript.ask_cases (r := .now) hnow with ⟨rfl, rfl⟩ | ⟨now, d, rfl, hscan⟩
  · exact .inl ⟨rfl, fun _ ha => nomatch ha⟩
  rcases Transcript.ask_cases (r := .scan root) hscan with ⟨rfl, rfl⟩ | ⟨r, d, rfl, hpause⟩
  · exact .inl ⟨rfl, fun _ ha => nomatch ha⟩
  have hend : scans d = [] ∧ ∀ a ∈ res, a = (now, r) := by
    rcases Transcript.ask_cases (r := .pause) hpause with ⟨rfl, rfl⟩ | ⟨_, d, rfl, hdone⟩
    · exact ⟨rfl, fun _ ha => nomatch ha⟩
    · obtain ⟨rfl, hres⟩ := hdone.of_done
      exact ⟨rfl, hres⟩
  obtain ⟨hd, hres⟩ := hend
  cases r with
  | error fault => exact .inl ⟨hd, fun a ha => ⟨fault, by rw [hres a ha]⟩⟩
  | ok scan => exact .inr ⟨scan, congrArg (scan :: ·) hd, fun a ha => by rw [hres a ha]⟩

end Loop

/-! ## All rounds -/

/-- In every round what changed since the last round that settled anything is pushed. -/
def PushesChanges (first : Snapshot) (rounds : List Round) : Prop :=
  ∀ before r after, rounds = before ++ r :: after →
    r.batch = r.scan.changesSince (lastScan Round.settles first before)

theorem PushesChanges.nil (first : Snapshot) : PushesChanges first [] := by
  intro before r after h
  exact absurd h.symm (List.append_ne_nil_of_right_ne_nil before (List.cons_ne_nil r after))

/-- The first round pushes what changed since the beginning, and the others go on from the scan that
it leaves behind. -/
theorem PushesChanges.cons {first : Snapshot} {r : Round} {rest : List Round}
    (hr : r.batch = r.scan.changesSince first)
    (hrest : PushesChanges (if r.settles then r.scan else first) rest) :
    PushesChanges first (r :: rest) := by
  intro before r' after h
  cases before with
  | nil =>
    cases h
    exact hr
  | cons r₀ before =>
    obtain ⟨rfl, htail⟩ := List.cons.inj h
    rw [lastScan_cons]
    exact hrest before r' after htail

/-- What a watch remembers after a push is what the round leaves behind. -/
theorem snapshotAfterPush_eq (previous current : Snapshot) (batch : List Location)
    (outcome : Except Failure Manifest) :
    snapshotAfterPush previous current outcome =
      if (Round.mk current batch (some outcome)).settles then current else previous := by
  cases outcome with
  | ok m => rfl
  | error f =>
    unfold snapshotAfterPush Round.settles Round.succeeds Round.blamesFiles
    by_cases hf : f.kind = .malformed <;> simp [hf]

/-- The rounds of a watch, from any round on: the induction is on how many there may be, and what
carries it is that the remembered scan is that of the last round that settled anything. -/
theorem watchRounds_rounds {send : List Path → Operation Manifest} {root : Path}
    {interval rounds due : Nat} {previous : Snapshot} {d : List Exchange}
    {res : Option (Except CommandFault Unit)}
    (h : Transcript (watchRounds send root interval rounds due previous).run d res) :
    ∃ log, Rounds send d log ∧ PushesChanges previous log := by
  induction rounds generalizing due previous d res with
  | zero =>
    obtain ⟨rfl, -⟩ := Transcript.of_done h
    exact ⟨[], .over rfl, .nil previous⟩
  | succ rounds ih =>
    rw [watchRounds_succ] at h
    rcases h.bind_cases with ⟨rfl, hlook⟩ | ⟨⟨now, seen⟩, d₁, d₂, rfl, hlook, h⟩
    · rcases look_cases hlook with ⟨hnone, -⟩ | ⟨current, hone, -⟩
      · exact ⟨[], .over hnone, .nil previous⟩
      · -- The watch was cut off right after the look.
        rw [← List.append_nil d]
        by_cases hchanged : current.changesSince previous = []
        · exact ⟨_, .quiet hone (.over rfl), .cons hchanged.symm (.nil _)⟩
        · exact ⟨_, .pushing hone hchanged (.stop _), .cons rfl (.nil _)⟩
    · rcases look_cases hlook with ⟨hnone, hseen⟩ | ⟨current, hone, hseen⟩
      · obtain ⟨fault, rfl⟩ := hseen _ rfl
        obtain ⟨rfl, -⟩ := Transcript.of_done h
        rw [List.append_nil]
        exact ⟨[], .over hnone, .nil previous⟩
      · obtain rfl : seen = .ok current := hseen _ rfl
        cases hchanged : current.changesSince previous with
        | nil =>
          simp only [afterLook, hchanged] at h
          obtain ⟨log, hlog, hpushes⟩ := ih h
          exact ⟨_, .quiet hone hlog, .cons hchanged.symm hpushes⟩
        | cons l more =>
          simp only [afterLook, hchanged] at h
          have hbatch : l :: more ≠ [] := List.cons_ne_nil l more
          rcases h.bind_cases with ⟨rfl, hsend⟩ | ⟨outcome, d₂, d₃, rfl, hsend, h⟩
          · exact ⟨_, .pushing hone hbatch hsend, .cons hchanged.symm (.nil _)⟩
          · rw [snapshotAfterPush_eq previous current (l :: more)] at h
            obtain ⟨log, hlog, hpushes⟩ := ih h
            exact ⟨_, .pushed hone hbatch hsend hlog, .cons hchanged.symm hpushes⟩

/-- What a watch asks is a look at the files, and then its rounds. -/
theorem watchLoop_run (s : Settings) (name : String) (root : Path) (interval rounds : Nat) :
    (watchLoop s name root interval rounds).run =
      .ask (.scan root) fun r => .ask .pause fun _ => match r with
        | .error fault => .done (.error (.io fault))
        | .ok first => .ask .now fun now =>
          (watchRounds (push s name root) root interval rounds (now + interval) first).run := by
  refine congrArg (Program.ask (.scan root)) (funext fun r => ?_)
  refine congrArg (Program.ask .pause) (funext fun _ => ?_)
  cases r with
  | error fault => rfl
  | ok first => rfl

/-- The rounds of a watch that saw the files at all. -/
theorem watchLoop_rounds {s : Settings} {name : String} {root : Path} {interval rounds : Nat}
    {d : List Exchange} {res : Option (Except CommandFault Unit)}
    (h : Transcript (watchLoop s name root interval rounds).run d res) :
    scans d = [] ∨ ∃ first log, IsWatch (push s name root) d first log ∧
      PushesChanges first log := by
  rw [watchLoop_run] at h
  rcases h.ask_cases with ⟨rfl, -⟩ | ⟨r, d, rfl, hpause⟩
  · exact .inl rfl
  cases r with
  | error fault =>
    refine .inl ?_
    rcases hpause.ask_cases with ⟨rfl, -⟩ | ⟨_, d, rfl, hdone⟩
    · rfl
    · rw [hdone.of_done.1]
      rfl
  | ok first =>
    refine .inr ⟨first, ?_⟩
    rcases hpause.ask_cases with ⟨rfl, -⟩ | ⟨_, d, rfl, hnow⟩
    · exact ⟨[], ⟨[_], [], rfl, rfl, .over rfl⟩, .nil first⟩
    rcases hnow.ask_cases with ⟨rfl, -⟩ | ⟨now, d, rfl, hrounds⟩
    · exact ⟨[], ⟨[_, _], [], rfl, rfl, .over rfl⟩, .nil first⟩
    · obtain ⟨log, hlog, hpushes⟩ := watchRounds_rounds hrounds
      exact ⟨log, ⟨[_, _, _], d, rfl, rfl, hlog⟩, hpushes⟩

/-- **What is in a batch.** In every round of a watch, whatever answers it gets, just those paths are
pushed whose times differ from the scan of the last round whose push succeeded or failed
for the local files. As long as no push has failed for the local files since the last one that
succeeded, these are all paths that have changed since that one. -/
theorem watch_pushes_iff {s : Settings} {name : String} {root : Path} {interval rounds : Nat}
    {d : List Exchange} {res : Option (Except CommandFault Unit)}
    (h : Transcript (watchLoop s name root interval rounds).run d res) :
    scans d = [] ∨ ∃ first log, IsWatch (push s name root) d first log ∧
      ∀ before r after, log = before ++ r :: after →
        (∀ l, l ∈ r.batch ↔
          r.scan.times.find? l ≠ (lastScan Round.settles first before).times.find? l) ∧
        ((∀ x ∈ before.reverse.find? Round.settles, x.succeeds = true) →
          ∀ l, l ∈ r.batch ↔
            r.scan.times.find? l ≠ (lastScan Round.succeeds first before).times.find? l) := by
  rcases watchLoop_rounds h with hnone | ⟨first, log, hwatch, hpushes⟩
  · exact .inl hnone
  · refine .inr ⟨first, log, hwatch, fun before r after hlog => ?_⟩
    have hbatch : ∀ l, l ∈ r.batch ↔
        r.scan.times.find? l ≠ (lastScan Round.settles first before).times.find? l := by
      intro l
      rw [hpushes before r after hlog]
      exact Snapshot.mem_changesSince_iff
    exact ⟨hbatch, fun hlast => lastScan_settles hlast ▸ hbatch⟩

/-! ## A change that is forgotten -/

/-- The exchanges of a look that sees the files. -/
def lookExchanges (root : Path) (due now : Nat) (scan : Snapshot) : List Exchange :=
  [⟨.sleepUntil due, ()⟩, ⟨.now, now⟩, ⟨.scan root, .ok scan⟩, ⟨.pause, ()⟩]

theorem Transcript.look (root : Path) (due now : Nat) (scan : Snapshot) :
    Transcript (look root due) (lookExchanges root due now scan) (some (now, .ok scan)) :=
  .asked (r := .sleepUntil due) () (.asked (r := .now) now
    (.asked (r := .scan root) (.ok scan) (.asked (r := .pause) () (.done _))))

/-- A round in which something is pushed, and the rounds after it. -/
theorem Transcript.pushedRound {send : List Path → Operation Manifest} {root : Path}
    {interval rounds due now : Nat} {previous current : Snapshot} {batch : List Location}
    {d₁ d₂ : List Exchange} {outcome : Except Failure Manifest}
    {res : Option (Except CommandFault Unit)} (hchanged : current.changesSince previous = batch)
    (hbatch : batch ≠ [])
    (hsend : Transcript (send (batch.map Path.ofNames)).run d₁ (some outcome))
    (hrest : Transcript (watchRounds send root interval rounds (nextTick interval due now)
      (snapshotAfterPush previous current outcome)).run d₂ res) :
    Transcript (watchRounds send root interval (rounds + 1) due previous).run
      (lookExchanges root due now current ++ (d₁ ++ d₂)) res := by
  rw [watchRounds_succ]
  refine (Transcript.look root due now current).bind ?_
  obtain ⟨l, more, rfl⟩ := List.exists_cons_of_ne_nil hbatch
  simp only [afterLook, hchanged]
  exact hsend.bind hrest

/-- A first look that sees the files, and the rounds after it. -/
theorem Transcript.watchLoop {s : Settings} {name : String} {root : Path}
    {interval rounds now : Nat} {first : Snapshot} {d : List Exchange}
    {res : Option (Except CommandFault Unit)}
    (h : Transcript (watchRounds (push s name root) root interval rounds (now + interval) first).run
      d res) :
    Transcript (watchLoop s name root interval rounds).run
      ([⟨.scan root, .ok first⟩, ⟨.pause, ()⟩, ⟨.now, now⟩] ++ d) res := by
  rw [watchLoop_run]
  exact .asked (r := .scan root) (.ok first) (.asked (r := .pause) () (.asked (r := .now) now h))

instance (r : Request) : Inhabited r.Reply := by
  cases r <;> exact inferInstance

/-- The answers for the shop and some local files, with a pod that runs and runs every command. -/
def shopAnswers (files : FileTree) : (r : Request) → r.Reply
  | .joinPodWait .. => .satisfied {}
  | .getWorkload _ => .ok shopWorkload
  | .beginExec _ => .ok none
  | .buildManifest root changed => Manifest.build files root changed
  | .readFiles m => m.writing files
  | _ => default

/-- The files of the shop. -/
def shopFiles : FileTree :=
  ({} : FileTree).write ⟨"app/index.js"⟩ (.file [] 0o644 ⟨1, 0⟩)

/-- The files of the shop after an edit, beside a file whose name leads out of the directory once
its backslash is taken for a slash. -/
def spoiledFiles : FileTree :=
  (shopFiles.write ⟨"app/index.js"⟩ (.file [] 0o644 ⟨2, 0⟩)).write ⟨"app/..\\up"⟩
    (.file [] 0o644 ⟨2, 0⟩)

/-- The files of the shop after the edit. -/
def mendedFiles : FileTree := spoiledFiles.delete ⟨"app/..\\up"⟩

/-- What is seen of some files in the directory of the shop. -/
def seen (files : FileTree) : Snapshot := (Snapshot.scan files ⟨"app"⟩).toOption.getD {}

/-- What is pushed of the shop with some files. -/
def shopPush (files : FileTree) (changed : List Location) :
    List Exchange × Except Failure Manifest :=
  (push {} "web" ⟨"app"⟩ (changed.map Path.ofNames)).run.answered (shopAnswers files)

/-- The first round of a watch of the shop, which sees the edit and the other file. -/
def spoiledRound : Round where
  scan := seen spoiledFiles
  batch := [["..\\up"], ["index.js"]]
  outcome := some (shopPush spoiledFiles [["..\\up"], ["index.js"]]).2

/-- The second round, which sees the edit and that the other file is gone. -/
def mendedRound : Round where
  scan := seen mendedFiles
  batch := [["..\\up"]]
  outcome := some (shopPush mendedFiles [["..\\up"]]).2

theorem spoiledRound_blamesFiles : spoiledRound.blamesFiles = true := by decide +kernel

/-- The watch of the shop in which these are the rounds. -/
theorem exists_shopWatch :
    ∃ d, Transcript (watchLoop {} "web" ⟨"app"⟩ 1000 2).run d (some (.ok ())) ∧
      IsWatch (push {} "web" ⟨"app"⟩) d (seen shopFiles) [spoiledRound, mendedRound] := by
  have hspoiled : (seen spoiledFiles).changesSince (seen shopFiles) = spoiledRound.batch := by
    decide +kernel
  have hmended : (seen mendedFiles).changesSince (seen spoiledFiles) = mendedRound.batch := by
    decide +kernel
  have hbatch₁ : spoiledRound.batch ≠ [] := List.cons_ne_nil _ _
  have hbatch₂ : mendedRound.batch ≠ [] := List.cons_ne_nil _ _
  have hsend₁ := Transcript.answered (shopAnswers spoiledFiles)
    (push {} "web" ⟨"app"⟩ (spoiledRound.batch.map Path.ofNames)).run
  have hsend₂ := Transcript.answered (shopAnswers mendedFiles)
    (push {} "web" ⟨"app"⟩ (mendedRound.batch.map Path.ofNames)).run
  have hremembered : snapshotAfterPush (seen shopFiles) (seen spoiledFiles)
      (shopPush spoiledFiles spoiledRound.batch).2 = seen spoiledFiles := by
    rw [snapshotAfterPush_eq _ _ spoiledRound.batch]
    exact if_pos (Bool.or_eq_true_iff.mpr (.inr spoiledRound_blamesFiles))
  have hsecond : Transcript (watchRounds (push {} "web" ⟨"app"⟩) ⟨"app"⟩ 1000 1 2000
      (seen spoiledFiles)).run (lookExchanges ⟨"app"⟩ 2000 2000 (seen mendedFiles) ++
        ((shopPush mendedFiles mendedRound.batch).1 ++ [])) (some (.ok ())) :=
    .pushedRound hmended hbatch₂ hsend₂ (.done _)
  have hfirst : Transcript (watchRounds (push {} "web" ⟨"app"⟩) ⟨"app"⟩ 1000 2 (0 + 1000)
      (seen shopFiles)).run (lookExchanges ⟨"app"⟩ (0 + 1000) 1000 (seen spoiledFiles) ++
        ((shopPush spoiledFiles spoiledRound.batch).1 ++ _)) (some (.ok ())) :=
    .pushedRound hspoiled hbatch₁ hsend₁ (hremembered ▸ hsecond)
  exact ⟨_, .watchLoop hfirst, [_, _, _], _, rfl, rfl,
    .pushed rfl hbatch₁ hsend₁ (.pushed rfl hbatch₂ hsend₂ (.over rfl))⟩

theorem IsWatch.scans_ne_nil {send : List Path → Operation Manifest} {d : List Exchange}
    {first : Snapshot} {rounds : List Round} (h : IsWatch send d first rounds) : scans d ≠ [] := by
  obtain ⟨d₁, d₂, rfl, hfirst, -⟩ := h
  rw [scans_append, hfirst]
  exact List.cons_ne_nil _ _

theorem watch_pushes_iff_shop :
    ∃ d, Transcript (watchLoop {} "web" ⟨"app"⟩ 1000 2).run d (some (.ok ())) ∧
      ∃ first log, IsWatch (push {} "web" ⟨"app"⟩) d first log ∧
        ∀ before r after, log = before ++ r :: after →
          (∀ l, l ∈ r.batch ↔
            r.scan.times.find? l ≠ (lastScan Round.settles first before).times.find? l) ∧
          ((∀ x ∈ before.reverse.find? Round.settles, x.succeeds = true) →
            ∀ l, l ∈ r.batch ↔
              r.scan.times.find? l ≠ (lastScan Round.succeeds first before).times.find? l) := by
  obtain ⟨d, hrun, hwatch⟩ := exists_shopWatch
  exact ⟨d, hrun, (watch_pushes_iff hrun).resolve_left hwatch.scans_ne_nil⟩

/-- **A change can be forgotten**: not every path that has changed since the last push that
succeeded is in the next batch. -/
theorem watch_forgets_changes :
    ¬ ∀ {s : Settings} {name : String} {root : Path} {interval rounds : Nat} {d : List Exchange}
      {res : Option (Except CommandFault Unit)} {first : Snapshot} {log : List Round},
      Transcript (watchLoop s name root interval rounds).run d res →
      IsWatch (push s name root) d first log →
      ∀ before r after, log = before ++ r :: after →
        ∀ l, r.scan.times.find? l ≠ (lastScan Round.succeeds first before).times.find? l →
          l ∈ r.batch := by
  intro h
  obtain ⟨d, hrun, hwatch⟩ := exists_shopWatch
  have hchanged : mendedRound.scan.times.find? ["index.js"] ≠
      (lastScan Round.succeeds (seen shopFiles) [spoiledRound]).times.find? ["index.js"] := by
    decide +kernel
  have hmem := h hrun hwatch [spoiledRound] mendedRound [] rfl ["index.js"] hchanged
  exact absurd hmem (by decide)

end InnerLoop
