import InnerLoop.Operation.Component
import InnerLoop.Proofs.Awaited
import InnerLoop.Proofs.Clients

/-!
# The fate of a build of one's own

A rebuild starts a build and waits until that build has ended. Meanwhile others start builds too, and
builds come to new phases in any order; the watch is opened later than the build is started.

- `Build.outcome`: how a build that has ended ends a wait for it.
- `BuildTurn`: what may happen to builds meanwhile; none of them goes.
- `reports_outcome`: a watch on a build is told when it has ended.
- `firstTerminal`: the first terminal phase that a build is seen in.
- `rebuild_tells_own_fate`: **a rebuild ends as the first terminal phase of its own build says**, and
  when its time is up if there is none.
-/

namespace InnerLoop

open Store

/-! ## Builds that have ended -/

/-- The build, if it has ended. -/
def Build.ended? (b : Build) : Option Build := if b.phase.isTerminal then some b else none

/-- How a build that has ended ends a wait for it. -/
def Build.outcome (b : Build) : Ending Build :=
  match buildVerdict .modified b with
  | .failed reason => .failed reason
  | _ => .satisfied b

namespace Build

variable {b : Build}

theorem buildVerdict_of_there {change : Change} (h : change ≠ .deleted) :
    buildVerdict change b = buildVerdict .modified b := by
  unfold buildVerdict
  rw [if_neg h]
  rfl

/-- A build is waited for until it has ended. -/
theorem buildVerdict_eq_pending_iff :
    buildVerdict .modified b = .pending ↔ b.phase.isTerminal = false := by
  unfold buildVerdict
  rw [if_neg (show Change.modified ≠ .deleted from nofun)]
  cases b.phase with
  | new | pending | running | unknown => exact iff_of_true rfl rfl
  | complete | failed | error | cancelled => exact iff_of_false nofun nofun

/-- A wait for a build that is there goes by its phase. -/
theorem ending?_buildVerdict {change : Change} (hchange : change ≠ .deleted) :
    (buildVerdict change b).ending? b = b.ended?.map outcome := by
  rw [buildVerdict_of_there hchange]
  unfold ended?
  cases hverdict : buildVerdict .modified b with
  | pending =>
    rw [buildVerdict_eq_pending_iff.mp hverdict]
    rfl
  | satisfied | failed =>
    have hterminal : b.phase.isTerminal = true := by
      rw [← Bool.not_eq_false, ← buildVerdict_eq_pending_iff, hverdict]
      nofun
    rw [if_pos hterminal]
    show _ = some b.outcome
    unfold outcome
    rw [hverdict]
    rfl

theorem outcome_of_complete (h : b.phase = .complete) : b.outcome = .satisfied b := by
  unfold outcome buildVerdict
  rw [if_neg (show Change.modified ≠ .deleted from nofun), h]

theorem outcome_of_incomplete (hterminal : b.phase.isTerminal = true) (h : b.phase ≠ .complete) :
    ∃ reason, b.outcome = .failed reason := by
  unfold outcome buildVerdict
  rw [if_neg (show Change.modified ≠ .deleted from nofun)]
  cases hphase : b.phase with
  | complete => exact absurd hphase h
  | failed => exact ⟨_, rfl⟩
  | error => exact ⟨_, rfl⟩
  | cancelled => exact ⟨_, rfl⟩
  | new | pending | running | unknown =>
    rw [hphase] at hterminal
    cases hterminal

end Build

/-! ## What happens meanwhile -/

/-- What others may do to builds in one turn: they start builds and bring them to new phases, and
open and drop watches of their own. None takes a build away. -/
structure BuildTurn (own : Nat) (w w' : World) : Prop where
  store : StoreTurn .build own w w'
  stay : ∀ name, w.cluster.builds.contains name = true → w'.cluster.builds.contains name = true

/-- A build that is started is filed. -/
theorem Cluster.instantiateBuild_eq_ok {c c' : Cluster} {n : String} {b : Build}
    (h : c.instantiateBuild n = (.ok b, c')) : ∃ o, c.builds.upsert o = (b, c'.builds) := by
  unfold instantiateBuild at h
  split at h
  · cases h
  · dsimp only at h
    split at h
    · cases h
    · rename_i hcreate
      cases h
      exact ⟨_, create_eq_ok hcreate⟩

/-- No build is filed when none is started. -/
theorem Cluster.instantiateBuild_eq_error {c c' : Cluster} {n : String} {fault : ClusterFault}
    (h : c.instantiateBuild n = (.error fault, c')) : c'.builds = c.builds := by
  unfold instantiateBuild at h
  split at h
  · cases h
    rfl
  · dsimp only at h
    split at h
    · cases h
      rfl
    · cases h

/-- The world after a build was brought to a phase, if there is one of the name. -/
def World.setBuildPhase (w : World) (name : String) (phase : BuildPhase) : World :=
  match w.cluster.builds.modify name fun b => { b with status := some { phase } } with
  | .ok (_, s) => w.modifyCluster ({ · with builds := s })
  | .error _ => w

@[simp] theorem World.clock_setBuildPhase (w : World) (name : String) (phase : BuildPhase) :
    (w.setBuildPhase name phase).clock = w.clock := by
  unfold setBuildPhase
  split <;> rfl

namespace BuildTurn

variable {own : Nat} {w w' : World}

/-- A build is filed, whatever is there. -/
theorem of_upsert {o : Build} (h : w'.cluster.builds = (w.cluster.builds.upsert o).2) :
    BuildTurn own w w' where
  store := by
    show w.cluster.builds.ClientStep own w'.cluster.builds
    rw [h]
    exact .file o
  stay name hthere := by
    unfold Store.contains SortedMap.contains at hthere ⊢
    rw [h, find?_upsert]
    split
    · rfl
    · exact hthere

/-- Others start builds. -/
theorem instantiate (own : Nat) (w : World) (config : String) :
    BuildTurn own w (w.request (·.instantiateBuild config)).2 := by
  show BuildTurn own w { w with cluster := (w.cluster.instantiateBuild config).2 }
  cases hstart : (w.cluster.instantiateBuild config).1 with
  | error fault =>
    have hsame := Cluster.instantiateBuild_eq_error (Prod.ext hstart rfl)
    exact ⟨.same hsame, fun name hthere => by rwa [hsame]⟩
  | ok b =>
    obtain ⟨o, ho⟩ := Cluster.instantiateBuild_eq_ok (Prod.ext hstart rfl)
    exact of_upsert (congrArg Prod.snd ho).symm

/-- Others bring builds to new phases. -/
theorem setBuildPhase (own : Nat) (w : World) (name : String) (phase : BuildPhase) :
    BuildTurn own w (w.setBuildPhase name phase) := by
  unfold World.setBuildPhase
  split
  · rename_i hmodify
    obtain ⟨o, ho⟩ := modify_eq_ok hmodify
    exact of_upsert (congrArg Prod.snd ho).symm
  · exact ⟨.same rfl, fun _ h => h⟩

end BuildTurn

/-- A build is there, in a store that is sound. -/
structure BuildThere (name : String) (w : World) : Prop where
  sound : w.cluster.builds.Sound
  there : w.cluster.builds.contains name = true

/-- The word that a build has ended, from the world after a turn. -/
def outcomeIn (name : String) (_ w : World) : Option (Ending Build) :=
  ((w.cluster.builds.objects.find? name).bind (·.ended?)).map Build.outcome

/-- A watch on a build was told something, and this is how that ends a wait for its end. -/
structure HeardOfBuild (own : Nat) (name : String) (w : World) (found : Option (Ending Build)) :
    Prop extends BuildThere name w where
  told : ∃ queue, w.cluster.builds.Listens own name queue ∧
    firstDecisive buildVerdict queue = found
  /-- It was told how things are. -/
  current : found.or (outcomeIn name w w) = found

section

variable {own : Nat} {name : String} {w w' : World}

theorem BuildThere.turn (h : BuildThere name w) (hturn : BuildTurn own w w') :
    BuildThere name w' where
  sound := ClientStep.sound (show w.cluster.builds.ClientStep own w'.cluster.builds from hturn.store)
    h.sound
  there := hturn.stay name h.there

theorem outcomeIn_eq_bind (v : World) : outcomeIn name v w =
    (w.cluster.builds.objects.find? name).bind fun o => o.ended?.map Build.outcome :=
  Option.map_bind

/-- Whatever a turn tells of a build decides if the build has ended. -/
theorem firstDecisive_told_build {told : List (WatchEvent Build)} {found : Option (Ending Build)}
    (hthere : BuildThere name w') (hcurrent : found.or (outcomeIn name w w) = found)
    (h : Tells name w.cluster.builds w'.cluster.builds told) :
    found.or (firstDecisive buildVerdict told) = found.or (outcomeIn name w w') := by
  cases h with
  | nothing hsame =>
    have hnews : outcomeIn name w w' = outcomeIn name w w := by
      unfold outcomeIn
      rw [hsame]
    rw [hnews, hcurrent]
    exact Option.or_none
  | @filed change o hchange hfind =>
    have hnews : outcomeIn name w w' = (buildVerdict change o).ending? o := by
      rw [outcomeIn_eq_bind, hfind, Build.ending?_buildVerdict hchange]
      rfl
    rw [hnews]
    show found.or (List.findSome? _ [_]) = _
    rw [List.findSome?_singleton]
    rfl
  | removed _ hgone =>
    -- No build goes.
    have hthere := hthere.there
    unfold Store.contains SortedMap.contains at hthere
    rw [hgone] at hthere
    cases hthere

/-- **A watch on a build is told when it has ended.** -/
theorem reports_outcome (own : Nat) (name : String) :
    Reports .build own buildVerdict (BuildTurn own) (outcomeIn name) (HeardOfBuild own name) where
  ending := by
    rintro w found ⟨-, ⟨queue, hlistens, rfl⟩, -⟩
    exact World.ending?_of_live (k := .build) hlistens rfl
  turn := by
    rintro w w' found ⟨hthere, ⟨queue, hlistens, rfl⟩, hcurrent⟩ hturn
    have hstep : w.cluster.builds.ClientStep own w'.cluster.builds := hturn.store
    have hthere' := hthere.turn hturn
    obtain ⟨told, htells, hlistens'⟩ := hstep.tells hthere.sound hlistens
    have htold := firstDecisive_told_build hthere' hcurrent htells
    refine ⟨hthere', ⟨queue ++ told, hlistens', ?_⟩, ?_⟩
    · exact List.findSome?_append.trans htold
    · show Option.or (Option.or _ (outcomeIn name w w')) (outcomeIn name w w') = _
      rw [Option.or_assoc, Option.or_self]

/-- A watch on a build that starts is told of the phase that the build has come to. -/
theorem heardOfBuild_watch (h : BuildThere name w) :
    HeardOfBuild w.cluster.builds.nextHandle name
      (w.modifyCluster (·.withStore .build (w.cluster.builds.watch (.name name)).2))
      (outcomeIn name w w) where
  sound := (StoreStep.watch _).sound h.sound
  there := h.there
  told := by
    refine ⟨_, listens_watch h.sound name, ?_⟩
    unfold firstDecisive
    rw [List.findSome?_map, findSome?_list_name h.sound, outcomeIn_eq_bind]
    refine congrArg (Option.bind _) (funext fun o => ?_)
    exact Build.ending?_buildVerdict nofun
  current := Option.or_self

end

/-! ## Rebuilds -/

/-- The first terminal phase that a build is seen in before some time, with the build as it then
is. -/
def firstTerminal (name : String) (deadline : Nat) (t : List (Event Unit)) : Option Build :=
  t.findSome? fun e =>
    if e.after.clock < deadline then
      (e.after.cluster.builds.objects.find? name).bind (·.ended?)
    else none

/-- The first news of a build are of the first terminal phase that it is seen in. -/
theorem newsBefore_outcomeIn {name : String} {deadline : Nat} {t : List (Event Unit)} :
    newsBefore deadline (outcomeIn name) t = (firstTerminal name deadline t).map Build.outcome := by
  unfold newsBefore firstTerminal
  rw [List.map_findSome?]
  refine congrArg (List.findSome? · t) (funext fun e => ?_)
  show _ = Option.map _ (if _ then _ else _)
  split <;> rfl

/-- A build that is seen to have ended at first. -/
theorem firstTerminal_cons {name : String} {deadline : Nat} {e : Event Unit} {t : List (Event Unit)}
    {b : Build} (htime : e.after.clock < deadline)
    (hfind : e.after.cluster.builds.objects.find? name = some b) (hended : b.phase.isTerminal = true) :
    firstTerminal name deadline (e :: t) = some b := by
  have hseen : (e.after.cluster.builds.objects.find? name).bind (·.ended?) = some b := by
    rw [hfind]
    exact if_pos hended
  unfold firstTerminal
  rw [List.findSome?_cons, if_pos htime, hseen]

theorem isTerminal_of_firstTerminal {name : String} {deadline : Nat} {t : List (Event Unit)}
    {b : Build} (h : firstTerminal name deadline t = some b) : b.phase.isTerminal = true := by
  obtain ⟨e, -, he⟩ := List.exists_of_findSome?_eq_some h
  split at he
  · obtain ⟨o, -, ho⟩ := Option.bind_eq_some_iff.mp he
    unfold Build.ended? at ho
    split at ho
    · cases ho
      assumption
    · cases ho
  · cases he

/-- How a rebuild ends when the wait for its build does. -/
def rebuilt (s : Settings) (n name : String) (e : Ending Build) : Except Failure Build :=
  Failure.within (.rebuild n) (e.result ("Build " ++ name) (.ofMillis s.buildTimeout))

/-- A rebuild after its watch was opened. -/
def afterOpening (s : Settings) (n name : String) (own : Nat) : Program (Except Failure Build) :=
  .ask .now fun now => .ask (.await .build own (now + s.buildTimeout) buildVerdict) fun e =>
    .done (rebuilt s n name e)

/-- A rebuild after its build was started. -/
def afterStart (s : Settings) (n : String) :
    Except ClusterFault Build → Program (Except Failure Build)
  | .error fault => .done (.error (.during (.instantiate n) (.ofCluster fault)))
  | .ok b => .ask (.watch .build (.name (Resource.nameOf b)))
    (afterOpening s n (Resource.nameOf b))

theorem rebuild_eq (s : Settings) (n : String) :
    (rebuild s n).run = .ask (.instantiateBuild n) (afterStart s n) := by
  refine congrArg (Program.ask _) (funext fun reply => ?_)
  cases reply with
  | error fault => rfl
  | ok b => rfl

/-- A build is started once. -/
theorem asks_afterStart {s : Settings} {n : String} (reply : Except ClusterFault Build) :
    (afterStart s n reply).Asks fun r => r ≠ .instantiateBuild n := by
  cases reply with
  | error fault => trivial
  | ok b => exact ⟨nofun, fun _ => ⟨nofun, fun _ => ⟨nofun, fun _ => trivial⟩⟩⟩

/-- The watch is opened once. -/
theorem asks_afterOpening {s : Settings} {n name : String} (own : Nat) :
    (afterOpening s n name own).Asks fun r => r ≠ .watch .build (.name name) :=
  ⟨nofun, fun _ => ⟨nofun, fun _ => trivial⟩⟩

/-- A build that was started is there, under its name. -/
theorem buildThere_of_started {w w' : World} {n : String} {b : Build}
    (hs : w.cluster.builds.Sound)
    (h : w.answer (.instantiateBuild n) = some (.ok b, w')) :
    BuildThere (Resource.nameOf b) w' := by
  have hstart : w.cluster.instantiateBuild n = (.ok b, w'.cluster) := by
    have hrequest : w.request (·.instantiateBuild n) = (.ok b, w') := Option.some.inj h
    exact Prod.ext (congrArg (·.1) hrequest) (congrArg (·.2.cluster) hrequest)
  obtain ⟨o, ho⟩ := Cluster.instantiateBuild_eq_ok hstart
  have hb : (w.cluster.builds.upsert o).1 = b := congrArg Prod.fst ho
  have hstore : (w.cluster.builds.upsert o).2 = w'.cluster.builds := congrArg Prod.snd ho
  constructor
  · rw [← hstore]
    exact hs.upsert o
  · have hname : Resource.nameOf b = Resource.nameOf o := by
      rw [← hb]
      exact Resource.nameOf_withVersion _ o
    have hfind := find?_upsert w.cluster.builds o (Resource.nameOf b)
    rw [if_pos hname, hstore] at hfind
    unfold Store.contains SortedMap.contains
    rw [hfind]
    rfl

section

variable {s : Settings} {n : String} {b : Build} {own : Nat} {w w' x x' v v' : World}
  {t₀ t₁ t₂ : List (Event Unit)} {q : Program (Except Failure Build)}

/-- A rebuild, from the start of its build to the opening of its watch. -/
theorem Paced.at_opening (hs : w.cluster.builds.Sound)
    (hothers : OthersDo (BuildTurn own) (t₀ ++ .asked () (.instantiateBuild n) x (.ok b) x' ::
      (t₁ ++ .asked () (.watch .build (.name (Resource.nameOf b))) v own v' :: t₂)))
    (h : Paced World.answer (rebuild s n).run w
      (t₀ ++ .asked () (.instantiateBuild n) x (.ok b) x' ::
        (t₁ ++ .asked () (.watch .build (.name (Resource.nameOf b))) v own v' :: t₂)) q w') :
    v'.clock = v.clock ∧ v'.cluster.builds.objects = v.cluster.builds.objects ∧
      HeardOfBuild own (Resource.nameOf b) v' (outcomeIn (Resource.nameOf b) v v') ∧
      Paced World.answer (afterOpening s n (Resource.nameOf b) own) v' t₂ q w' := by
  rw [rebuild_eq] at h
  obtain ⟨hidle₀, hbefore, hstarted, hrest⟩ := h.at_question
    (P := fun r => r = .instantiateBuild n) rfl asks_afterStart
  obtain ⟨hidle₁, hbetween, hopened, hafter⟩ := hrest.at_question
    (P := fun r => r = .watch .build (.name (Resource.nameOf b))) rfl asks_afterOpening
  have hsound : x.cluster.builds.Sound :=
    hbefore.kept_of_idle (P := fun w => w.cluster.builds.Sound)
      (fun hturn hs => ClientStep.sound hturn.store hs) hothers.left hidle₀ hs
  have hthere : BuildThere (Resource.nameOf b) v :=
    hbetween.kept_of_idle (P := BuildThere (Resource.nameOf b))
      (fun hturn hthere => hthere.turn hturn) hothers.right.tail.left hidle₁
      (buildThere_of_started hsound hstarted)
  obtain ⟨rfl, rfl⟩ := Prod.mk.inj (Option.some.inj hopened)
  exact ⟨rfl, rfl, heardOfBuild_watch hthere, hafter⟩

/-- Once its watch is open, a rebuild goes by the first terminal phase of its build. -/
theorem Paced.atOnce_rebuild (hs : w.cluster.builds.Sound)
    (hothers : OthersDo (BuildTurn own) (t₀ ++ .asked () (.instantiateBuild n) x (.ok b) x' ::
      (t₁ ++ .asked () (.watch .build (.name (Resource.nameOf b))) v own v' :: t₂)))
    (h : Paced World.answer (rebuild s n).run w
      (t₀ ++ .asked () (.instantiateBuild n) x (.ok b) x' ::
        (t₁ ++ .asked () (.watch .build (.name (Resource.nameOf b))) v own v' :: t₂)) q w') :
    q.atOnce World.answer w' =
      (((firstTerminal (Resource.nameOf b) (v.clock + s.buildTimeout)
        (.asked () (.watch .build (.name (Resource.nameOf b))) v own v' :: t₂)).map Build.outcome).or
          (if v.clock + s.buildTimeout ≤ w'.clock then some .timedOut else none)).map
        (rebuilt s n (Resource.nameOf b)) := by
  obtain ⟨hclock, -, hheard, hrest⟩ := h.at_opening hs hothers
  rw [← hclock, ← newsBefore_outcomeIn, newsBefore_cons]
  refine Paced.awaited_for (reports_outcome own _) (fun _ _ => rfl) (fun _ => rfl)
    (fun _ => ⟨.idle, fun _ h => h⟩) World.swift_answer hothers.right.tail.right.tail ?_ hrest
  -- What the watch was told when it started is in time, unless there is no time at all.
  rw [newsBefore_singleton]
  constructor
  · intro htime
    show HeardOfBuild own _ v' (if v'.clock < v'.clock + s.buildTimeout then
      outcomeIn (Resource.nameOf b) v v' else none)
    rw [if_pos htime]
    exact hheard
  · intro htime
    exact if_neg (Nat.not_lt.mpr htime)

/-- **A rebuild ends as the first terminal phase of its own build says.** Others may start builds and
bring any build to any phase, between any two questions of the rebuild. Once its build was started
and its watch opened, the rebuild gives the build as it was in the first terminal phase that was
there before `buildTimeout` had gone by, if that phase is complete, and fails for it otherwise;
if there was none it fails when its time is up, and not before. What became of other builds plays no
part, and a phase that the build came to before the watch was opened counts as well. -/
theorem rebuild_tells_own_fate (hs : w.cluster.builds.Sound)
    (hothers : OthersDo (BuildTurn own) (t₀ ++ .asked () (.instantiateBuild n) x (.ok b) x' ::
      (t₁ ++ .asked () (.watch .build (.name (Resource.nameOf b))) v own v' :: t₂)))
    (h : Paced World.answer (rebuild s n).run w
      (t₀ ++ .asked () (.instantiateBuild n) x (.ok b) x' ::
        (t₁ ++ .asked () (.watch .build (.name (Resource.nameOf b))) v own v' :: t₂)) q w') :
    let deadline := v.clock + s.buildTimeout
    let first := firstTerminal (Resource.nameOf b) deadline
      (.asked () (.watch .build (.name (Resource.nameOf b))) v own v' :: t₂)
    (∀ o, q.atOnce World.answer w' = some (.ok o) ↔ first = some o ∧ o.phase = .complete) ∧
    (∀ o, first = some o → o.phase ≠ .complete →
      ∃ reason, q.atOnce World.answer w' = some (.error (.during (.rebuild n)
        (.conditionFailed ("Build " ++ Resource.nameOf b) reason)))) ∧
    (first = none → q.atOnce World.answer w' =
      if deadline ≤ w'.clock then some (.error (.during (.rebuild n)
        (.timeout ("Build " ++ Resource.nameOf b) (.ofMillis s.buildTimeout))))
      else none) ∧
    (∀ o, v.cluster.builds.objects.find? (Resource.nameOf b) = some o → o.phase.isTerminal = true →
      0 < s.buildTimeout → first = some o) := by
  intro deadline first
  have hends := h.atOnce_rebuild hs hothers
  change _ = ((first.map Build.outcome).or (if deadline ≤ w'.clock then some .timedOut else none)).map
    (rebuilt s n (Resource.nameOf b)) at hends
  have hterminal : ∀ o, first = some o → o.phase.isTerminal = true :=
    fun _ hfirst => isTerminal_of_firstTerminal hfirst
  have hcomplete : ∀ o, first = some o → o.phase = .complete →
      q.atOnce World.answer w' = some (.ok o) := by
    intro o hfirst hphase
    rw [hends, hfirst]
    show some (rebuilt s n _ o.outcome) = _
    rw [Build.outcome_of_complete hphase]
    rfl
  have hincomplete : ∀ o, first = some o → o.phase ≠ .complete →
      ∃ reason, q.atOnce World.answer w' = some (.error (.during (.rebuild n)
        (.conditionFailed ("Build " ++ Resource.nameOf b) reason))) := by
    intro o hfirst hphase
    obtain ⟨reason, hreason⟩ := Build.outcome_of_incomplete (hterminal o hfirst) hphase
    refine ⟨reason, ?_⟩
    rw [hends, hfirst]
    show some (rebuilt s n _ o.outcome) = _
    rw [hreason]
    rfl
  have hnone : first = none → q.atOnce World.answer w' =
      if deadline ≤ w'.clock then some (.error (.during (.rebuild n)
        (.timeout ("Build " ++ Resource.nameOf b) (.ofMillis s.buildTimeout)))) else none := by
    intro hfirst
    rw [hends, hfirst]
    split <;> rfl
  refine ⟨fun o => ⟨fun hok => ?_, fun h => hcomplete o h.1 h.2⟩, hincomplete, hnone, ?_⟩
  · cases hfirst : first with
    | none =>
      rw [hnone hfirst] at hok
      split at hok <;> cases hok
    | some o' =>
      by_cases hphase : o'.phase = .complete
      · rw [hcomplete o' hfirst hphase] at hok
        cases hok
        exact ⟨rfl, hphase⟩
      · obtain ⟨reason, hreason⟩ := hincomplete o' hfirst hphase
        rw [hreason] at hok
        cases hok
  · intro o hfind hended htime
    obtain ⟨hclock, hobjects, -, -⟩ := h.at_opening hs hothers
    refine firstTerminal_cons ?_ ?_ hended
    · show v'.clock < deadline
      omega
    · show v'.cluster.builds.objects.find? _ = _
      rw [hobjects]
      exact hfind

end

/-! ## A rebuild among others -/

/-- How a watch is opened. -/
theorem World.answer_watch (w : World) (k : Kind) (selector : Selector) :
    w.answer (.watch k selector) = some ((w.cluster.store k).nextHandle,
      w.modifyCluster (·.withStore k ((w.cluster.store k).watch selector).2)) := rfl

/-- A cluster with a build config. -/
def buildingWorld : World where
  cluster :=
    { ns := "dev", buildConfigs := (Store.upsert {} { metadata := { name := some "shop" } }).2 }

/-- The first build that is started there. -/
def shopBuild : Build := Resource.withVersion "1" (Cluster.newBuild "shop" 1)

/-- Before the watch is opened another build is started and fails, and the own one completes. -/
theorem rebuild_tells_own_fate_shop :
    buildingWorld.cluster.builds.Sound ∧ ∃ own x' t₁ v v' q,
      Paced World.answer (rebuild {} "shop").run buildingWorld
        ([] ++ .asked () (.instantiateBuild "shop") buildingWorld (.ok shopBuild) x' ::
          (t₁ ++ [.asked () (.watch .build (.name (Resource.nameOf shopBuild))) v own v'])) q v' ∧
      OthersDo (BuildTurn own)
        ([] ++ .asked () (.instantiateBuild "shop") buildingWorld (.ok shopBuild) x' ::
          (t₁ ++ [.asked () (.watch .build (.name (Resource.nameOf shopBuild))) v own v'])) ∧
      (v.cluster.builds.objects.find? "shop-2").map (·.phase) = some .failed ∧
      ∃ o, q.atOnce World.answer v' = some (.ok o) ∧ o.phase = .complete := by
  let started := (buildingWorld.request (·.instantiateBuild "shop")).2
  let other := (started.request (·.instantiateBuild "shop")).2
  let failed := other.setBuildPhase "shop-2" .failed
  let completed := failed.setBuildPhase "shop-1" .complete
  let own := (completed.cluster.store .build).nextHandle
  let opened := completed.modifyCluster (·.withStore .build
    ((completed.cluster.store .build).watch (.name (Resource.nameOf shopBuild))).2)
  have hrun : Paced World.answer (rebuild {} "shop").run buildingWorld
      ([] ++ .asked () (.instantiateBuild "shop") buildingWorld (.ok shopBuild) started ::
        ([.other started other, .other other failed, .other failed completed] ++
          [.asked () (.watch .build (.name (Resource.nameOf shopBuild))) completed own opened]))
      (afterOpening {} "shop" (Resource.nameOf shopBuild) own) opened := by
    rw [rebuild_eq]
    refine .asked rfl (.other rfl ?_)
    refine .other (World.clock_setBuildPhase _ _ _) (.other (World.clock_setBuildPhase _ _ _) ?_)
    exact .asked (World.answer_watch completed .build _) (.start _ _)
  have hothers : OthersDo (BuildTurn own)
      ([] ++ .asked () (.instantiateBuild "shop") buildingWorld (.ok shopBuild) started ::
        ([.other started other, .other other failed, .other failed completed] ++
          [.asked () (.watch .build (.name (Resource.nameOf shopBuild))) completed own opened])) := by
    intro x y hmem
    simp only [List.nil_append, List.cons_append, List.mem_cons, List.not_mem_nil, or_false,
      reduceCtorEq, false_or, Event.other.injEq] at hmem
    rcases hmem with ⟨rfl, rfl⟩ | ⟨rfl, rfl⟩ | ⟨rfl, rfl⟩
    · exact .instantiate own started "shop"
    · exact .setBuildPhase own other "shop-2" .failed
    · exact .setBuildPhase own failed "shop-1" .complete
  have hsound : buildingWorld.cluster.builds.Sound := Sound.empty
  have hended : (completed.cluster.builds.objects.find? (Resource.nameOf shopBuild)).map (·.phase)
      = some .complete := by decide +kernel
  have hother : (completed.cluster.builds.objects.find? "shop-2").map (·.phase) = some .failed := by
    decide +kernel
  obtain ⟨o, hfind, hphase⟩ := Option.map_eq_some_iff.mp hended
  obtain ⟨hok, -, -, hearly⟩ := rebuild_tells_own_fate hsound hothers hrun
  have hfirst := hearly o hfind (by rw [hphase]; rfl) (by decide)
  exact ⟨hsound, own, started, _, completed, opened, _, hrun, hothers, hother, o,
    (hok o).mpr ⟨hfirst, hphase⟩, hphase⟩

end InnerLoop
