import InnerLoop.Proofs.InOrder
import InnerLoop.Proofs.WatchRounds
import InnerLoop.Proofs.Written

/-!
# What pushing files returns

Local files are pushed as an archive that a remote command reads while it is written. Which side
ends first, and how, is left open here, and so is where making the archive breaks off.

- `Manifest.PushSettled`: what a push returns, by where its transfer stood in the end.
- `pushFiles_settles`: **every push returns that**, if it comes to a transfer at all.
- `Transcript.exists_pushFiles`: every way in which a transfer can be settled is the end of a push.
- `unheeded_push_succeeds`: a push can succeed of which nothing was read.

Whether the remote command has read all is not looked at. A command that does well without that is
found out only if something was left to be written when it was gone.
-/

namespace InnerLoop

/-! ## Settled pushes -/

/-- What a push of a manifest returns, given the writing of its archive and where the transfer of
that stood in the end. -/
structure Manifest.PushSettled (m : Manifest) (files : FileTree) (pod : String) (w : Writing)
    (t : Transfer) (r : Except Failure Manifest) : Prop where
  /-- A writing that does not break off writes the complete archive, and no entry is at fault. -/
  whole : w.failure = none →
    (∀ e ∈ m.entries, (Archive.entryWrites files e).fault = none) ∧ w.bytes = m.archiveBytes files
  /-- Every byte was read, or was in the pipe when the remote command was gone, or is left to be
  written. -/
  bytes : ∃ ahead, w.bytes = t.received ++ ahead ++ t.writing.bytes ∧ ahead.length ≤ pipeCapacity
  /-- The push succeeds exactly if the archive could be made, all of it was written and the remote
  command did well. -/
  ok_iff : (∃ a, r = .ok a) ↔
    w.failure = none ∧ t.writing.parts = [] ∧ t.exit = some (.ok ())
  eq_of_ok : ∀ a, r = .ok a → a = m
  /-- If the remote command failed, that is the failure that is reported, unless making the archive
  failed for a reason of its own when all before was written. -/
  remote : ∀ fault, t.exit = some (.error fault) →
    r = .error (.during (.pushToPod pod) (.ofCluster fault)) ∨
      ¬ t.LeftUnread ∧ ∃ failure, w.failure = some failure ∧ failure.isHangUp = false ∧
        r = .error (.during (.pushToPod pod) failure)
  /-- If the remote command did well, but was gone before all was written, the push fails for
  that. -/
  unread : t.exit = some (.ok ()) → t.LeftUnread →
    ∃ failure, failure.isHangUp = true ∧ r = .error (.during (.pushToPod pod) failure)
  /-- It does not fail if all was written by then, whether it was read or not. -/
  heedless : t.exit = some (.ok ()) → w.failure = none → ¬ t.LeftUnread → r = .ok m
  /-- It does fail if more was unread than a pipe holds. -/
  overfull : t.received.length + pipeCapacity < w.bytes.length → ∃ e, r = .error e
  /-- If the archive cannot be made, the push fails, however the remote command ends. -/
  broken : ∀ failure, w.failure = some failure → ∃ e, r = .error e

section

variable {m : Manifest} {files : FileTree} {pod : String} {w : Writing} {t : Transfer}
  {r : Except Failure Unit}

theorem Transfer.Kept.fits (hk : Transfer.Kept w t) :
    ∃ ahead, w.bytes = t.received ++ ahead ++ t.writing.bytes ∧ ahead.length ≤ pipeCapacity := by
  obtain ⟨ahead, hbytes, hfits, -⟩ := hk.bytes
  exact ⟨ahead, hbytes, hfits⟩

theorem Transfer.not_leftUnread (hparts : t.writing.parts = []) : ¬ t.LeftUnread := by
  rintro ⟨-, p, hp, -⟩
  exact absurd (hparts ▸ hp) List.not_mem_nil

/-- A push that all went well with. -/
theorem Manifest.Attempt.pushSettled_ok (h : m.Attempt files w) (hk : Transfer.Kept w t)
    (hparts : t.writing.parts = []) (hwell : w.failure = none) (hexit : t.exit = some (.ok ())) :
    m.PushSettled files pod w t (.ok m) where
  whole := h.complete
  bytes := hk.fits
  ok_iff := ⟨fun _ => ⟨hwell, hparts, hexit⟩, fun _ => ⟨m, rfl⟩⟩
  eq_of_ok := fun a ha => (Except.ok.inj ha).symm
  remote := fun fault hfault => absurd (hexit.symm.trans hfault) (nomatch ·)
  unread := fun _ hunread => absurd hunread (Transfer.not_leftUnread hparts)
  heedless := fun _ _ _ => rfl
  overfull := by
    intro hmore
    obtain ⟨ahead, hbytes, hfits⟩ := hk.fits
    have hnone : t.writing.bytes = [] := congrArg (List.flatMap Part.bytes) hparts
    rw [hbytes, hnone, List.append_nil, List.length_append] at hmore
    omega
  broken := fun failure hfailure => absurd (hwell.symm.trans hfailure) (nomatch ·)

/-- A push that failed, for a reason that both sides bear out. -/
theorem Manifest.Attempt.pushSettled_error {failure : Failure} (h : m.Attempt files w)
    (hk : Transfer.Kept w t)
    (hleft : t.exit = some (.ok ()) → w.failure = none → t.LeftUnread)
    (hremote : ∀ fault, t.exit = some (.error fault) → failure = .ofCluster fault ∨
      ¬ t.LeftUnread ∧ w.failure = some failure)
    (hunread : t.exit = some (.ok ()) → t.LeftUnread → failure.isHangUp = true) :
    m.PushSettled files pod w t (.error (.during (.pushToPod pod) failure)) where
  whole := h.complete
  bytes := hk.fits
  ok_iff := by
    constructor
    · rintro ⟨a, ha⟩
      cases ha
    · rintro ⟨hwell, hparts, hexit⟩
      exact absurd (hleft hexit hwell) (Transfer.not_leftUnread hparts)
  eq_of_ok := nofun
  remote := by
    intro fault hfault
    rcases hremote fault hfault with rfl | ⟨hread, hfailure⟩
    · exact .inl rfl
    · exact .inr ⟨hread, failure, hfailure, h.sound.own failure hfailure, rfl⟩
  unread := fun hexit hmore => ⟨failure, hunread hexit hmore, rfl⟩
  heedless := fun hexit hwell hread => absurd (hleft hexit hwell) hread
  overfull := fun _ => ⟨_, rfl⟩
  broken := fun _ _ => ⟨_, rfl⟩

/-- In each of the ways in which a transfer can be settled, the push returns what it should. -/
theorem Manifest.Attempt.pushSettled (h : m.Attempt files w) (hk : Transfer.Kept w t)
    (hsettled : Transfer.Settled w t r) : m.PushSettled files pod w t (m.pushed pod r) := by
  cases hsettled with
  | well hparts hwell hexit => exact h.pushSettled_ok hk hparts hwell hexit
  | remote fault hexit =>
    have hnot : t.exit ≠ some (.ok ()) := fun hok => nomatch hexit.symm.trans hok
    refine h.pushSettled_error hk (absurd · hnot) (fun fault' hfault => .inl ?_) (absurd · hnot)
    cases hexit.symm.trans hfault
    rfl
  | unread failure hhangs hunread hexit =>
    refine h.pushSettled_error hk (fun _ _ => hunread) (fun fault hfault => ?_) fun _ _ => hhangs
    cases hexit.symm.trans hfault
  | broken failure hfailure hread =>
    refine h.pushSettled_error hk (fun _ hwell => ?_) (fun _ _ => .inr ⟨hread, hfailure⟩)
      fun _ hunread => absurd hunread hread
    cases hfailure.symm.trans hwell

end

/-! ## Pushes -/

section

variable {root : Path} {pod target : String} {changed : List Path}

/-- **Pushing files**: whatever the two sides of the transfer do, in whatever order they end, and
wherever making the archive of the files breaks off, a push returns what it should by where both
sides stood in the end, unless it was not known what to push, or nobody was there to take it. What
is recorded of the remote command, if it came to its end, is what it had read. -/
theorem pushFiles_settles {files : FileTree} {d : List Exchange} {r : Except Failure Manifest}
    (h : Transcript (pushFiles root pod target changed).run d (some r))
    (hfiles : ∀ m w, ⟨.readFiles m, w⟩ ∈ d → m.Attempt files w) :
    (∃ e, ⟨.buildManifest root changed, .error e⟩ ∈ d ∧ r = .error e) ∨
    ∃ m, ⟨.buildManifest root changed, .ok m⟩ ∈ d ∧
      ((∃ fault, ⟨.beginExec pod, .error fault⟩ ∈ d ∧
          r = .error (.during (.pushToPod pod) (.ofCluster fault))) ∨
        ∃ trouble, ∃ (w : Writing) (s : Settlement w), Sent m pod d trouble s ∧
          ended d = s.now.exit.toList.map (fun _ => unpackCall m pod target s.now.received) ∧
          m.PushSettled files pod w s.now r) := by
  rcases h.pushFiles_cases with
    ⟨-, hres⟩ | ⟨m, d₁, sent, hbuilt, hsub, -, hended, hsend, hr⟩
  · exact .inl (hres r rfl)
  obtain ⟨r', rfl, rfl⟩ := Option.map_eq_some_iff.mp hr.symm
  refine .inr ⟨m, hbuilt, ?_⟩
  rcases hsend.sendArchive_cases with
    ⟨-, hnone⟩ | ⟨fault, hfault, -, hres⟩ | ⟨trouble, w, s, d₂, hsent, -, hended₁, hrest⟩
  · cases hnone
  · rw [hres r' rfl]
    exact .inl ⟨fault, hsub hfault, rfl⟩
  have hsent : Sent m pod d trouble s := hsent.mono hsub
  have hattempt := hfiles m w hsent.writing_mem
  obtain ⟨hlast, rfl⟩ := hrest.afterTransfer_done
  refine .inr ⟨trouble, w, s, hsent, (hended.trans hended₁).trans hlast, ?_⟩
  exact hattempt.pushSettled s.kept (s.settled_cases hattempt.sound)

/-! ## Every settlement is the end of a push -/

/-- What is asked while a command comes to its end. -/
def Request.IsEnding : Request → Prop
  | .now | .sleepUntil _ | .endExec _ => True
  | _ => False

theorem Transcript.exists_endCommand {α : Type} (lingers : Bool) (call : ExecCall) (a : α) :
    ∃ d, Transcript (endCommand lingers call a) d (some a) ∧ ∀ e ∈ d, e.request.IsEnding := by
  have hend : Transcript (.ask (.endExec call) fun _ => .done a) [⟨.endExec call, ()⟩] (some a) :=
    .asked (r := .endExec call) () (.done a)
  cases lingers with
  | false => exact ⟨_, hend, List.forall_mem_singleton.mpr trivial⟩
  | true =>
    have hwait : Transcript (endCommand true call a)
        [⟨.now, (0 : Nat)⟩, ⟨.sleepUntil (0 + hangUpLinger), ()⟩, ⟨.endExec call, ()⟩] (some a) :=
      .asked (r := .now) (0 : Nat) (.asked (r := .sleepUntil (0 + hangUpLinger)) () hend)
    exact ⟨_, hwait, List.forall_mem_cons.mpr ⟨trivial, List.forall_mem_cons.mpr
      ⟨trivial, List.forall_mem_singleton.mpr trivial⟩⟩⟩

/-- What is sent, once it is known what that is, is pushed. -/
theorem Transcript.pushFiles_of_sendArchive {m : Manifest} {d : List Exchange}
    {r : Except Failure Unit} (h : Transcript (sendArchive m pod target).run d (some r)) :
    Transcript (pushFiles root pod target changed).run
      (⟨.buildManifest root changed, .ok m⟩ :: ⟨.pause, ()⟩ :: d) (some (m.pushed pod r)) := by
  have hwithin : Transcript (Operation.within (.pushToPod pod) (sendArchive m pod target)).run
      (d ++ []) (some (Failure.within (.pushToPod pod) r)) := h.bind (.done _)
  have hsent : Transcript
      (Operation.within (.pushToPod pod) (sendArchive m pod target) >>= fun _ => pure m).run
      (d ++ [] ++ []) (some (m.pushed pod r)) := by
    rw [Operation.run_bind_pure]
    exact hwithin.bind (.done _)
  rw [List.append_nil, List.append_nil] at hsent
  exact .asked (r := .buildManifest root changed) (.ok m) (.asked (r := .pause) () hsent)

end

section

variable (root : Path) (pod target : String) (changed : List Path) (m : Manifest)
  (trouble : Option ExecTrouble) {w : Writing} (s : Settlement w)

/-- What a push asks until a transfer is settled, with the answers. -/
def untilSettled : List Exchange :=
  [⟨.buildManifest root changed, .ok m⟩, ⟨.pause, ()⟩, ⟨.beginExec pod, .ok trouble⟩,
    ⟨.readFiles m, w⟩, ⟨.pause, ()⟩, ⟨.transfer trouble w, s⟩]

/-- However a transfer is settled, there is a push that ends so. -/
theorem Transcript.exists_pushFiles :
    ∃ d, (∀ e ∈ d, e.request.IsEnding) ∧
      Transcript (pushFiles root pod target changed).run
        (untilSettled root pod changed m trouble s ++ d) (some (m.pushed pod s.result)) := by
  obtain ⟨d, hrest, hending⟩ : ∃ d,
      Transcript (afterTransfer m pod target trouble s) d (some s.result) ∧
        ∀ e ∈ d, e.request.IsEnding := by
    unfold afterTransfer
    cases s.now.exit with
    | some e => exact exists_endCommand _ _ _
    | none => exact ⟨[], .done _, fun _ he => absurd he List.not_mem_nil⟩
  refine ⟨d, hending, Transcript.pushFiles_of_sendArchive ?_⟩
  rw [sendArchive_eq]
  exact .asked (r := .beginExec pod) (.ok trouble) (.asked (r := .readFiles m) w
    (.asked (r := .pause) () (.asked (r := .transfer trouble w) s hrest)))

end

/-! ## Pushes of the shop -/

/-- What is pushed of the files of the shop. -/
def shopManifest : Manifest := ((Manifest.build shopFiles ⟨"app"⟩ []).toOption).getD default

/-- The writing of it. -/
def shopWriting : Writing := shopManifest.writing shopFiles

/-- The exchanges of a push of the shop in which a transfer is settled. -/
def shopSending (trouble : Option ExecTrouble) (s : Settlement shopWriting) : List Exchange :=
  untilSettled ⟨"app"⟩ "web-1" [] shopManifest trouble s

/-- A push goes on from these exchanges to its end, and all that it writes is the archive. -/
theorem exists_shopSending (trouble : Option ExecTrouble) (s : Settlement shopWriting) :
    ∃ d, Transcript (pushFiles ⟨"app"⟩ "web-1" "/tmp/src" []).run (shopSending trouble s ++ d)
        (some (shopManifest.pushed "web-1" s.result)) ∧
      (∀ r reply, ¬ r.IsEnding → ⟨r, reply⟩ ∉ d) ∧
      ∀ m w, ⟨.readFiles m, w⟩ ∈ shopSending trouble s ++ d → m.Attempt shopFiles w := by
  obtain ⟨d, hending, hpush⟩ := Transcript.exists_pushFiles ⟨"app"⟩ "web-1" "/tmp/src" []
    shopManifest trouble s
  have hno : ∀ r reply, ¬ r.IsEnding → ⟨r, reply⟩ ∉ d :=
    fun r reply hr hmem => hr (hending _ hmem)
  refine ⟨d, hpush, hno, fun m w hmem => ?_⟩
  have hread : m = shopManifest ∧ w = shopWriting := by
    simpa [shopSending, untilSettled, hno _ _ (show ¬ (Request.readFiles m).IsEnding from id)]
      using hmem
  obtain ⟨rfl, rfl⟩ := hread
  exact .whole

/-- A command that stops reading, and then fails. -/
def fullDisk : ExecTrouble := { message := "no space left on device", hangUp := true }

/-- The failure of that command, not that of a writing that nobody reads. -/
theorem pushFiles_settles_shop :
    ∃ d, Transcript (pushFiles ⟨"app"⟩ "web-1" "/tmp/src" []).run d
        (some (.error (.during (.pushToPod "web-1") (.ofCluster (.exec fullDisk.message))))) ∧
      (∀ m w, ⟨.readFiles m, w⟩ ∈ d → m.Attempt shopFiles w) ∧
      ∃ m trouble w, ∃ s : Settlement w, Sent m "web-1" d trouble s ∧
        m.PushSettled shopFiles "web-1" w s.now
          (.error (.during (.pushToPod "web-1") (.ofCluster (.exec fullDisk.message)))) := by
  obtain ⟨d, hpush, hno, hfiles⟩ := exists_shopSending (some fullDisk)
    (.deserted shopWriting (exitOf (some fullDisk)))
  refine ⟨_, hpush, hfiles, ?_⟩
  rcases pushFiles_settles hpush hfiles with
    ⟨e, hbuilt, -⟩ | ⟨m, -, ⟨fault, hbegun, -⟩ | ⟨trouble, w, s, hsent, -, hsettled⟩⟩
  · simp [shopSending, untilSettled, hno _ _ (show ¬ (Request.buildManifest _ _).IsEnding from id)]
      at hbuilt
  · simp [shopSending, untilSettled, hno _ _ (show ¬ (Request.beginExec _).IsEnding from id)]
      at hbegun
  · exact ⟨m, trouble, w, s, hsent, hsettled⟩

/-- A remote command that does well without having read what was sent is not always found out. -/
theorem unheeded_push_succeeds :
    ¬ ∀ d r, Transcript (pushFiles ⟨"app"⟩ "web-1" "/tmp/src" []).run d (some r) →
      (∀ m w, ⟨.readFiles m, w⟩ ∈ d → m.Attempt shopFiles w) →
      ∀ trouble w, ∀ s : Settlement w, ⟨.transfer trouble w, s⟩ ∈ d →
        s.now.exit = some (.ok ()) → s.now.received ≠ w.bytes → ∃ e, r = .error e := by
  intro h
  have hwell : shopWriting.failure = none := by decide +kernel
  have hfits : shopWriting.bytes.length ≤ pipeCapacity := by decide +kernel
  let s := shopWriting.unheeded hwell hfits
  obtain ⟨d, hpush, -, hfiles⟩ := exists_shopSending none s
  have hmem : ⟨.transfer none shopWriting, s⟩ ∈ shopSending none s ++ d := by
    simp [shopSending, untilSettled]
  have hunread : ([] : List UInt8) ≠ shopWriting.bytes := by decide +kernel
  obtain ⟨e, he⟩ := h _ _ hpush hfiles none shopWriting s hmem rfl hunread
  cases he

end InnerLoop
