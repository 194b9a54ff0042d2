import InnerLoop.Proofs.Together
import InnerLoop.Proofs.Writers

/-!
# Writers one after another

However many writers run together on one workload, and whatever others do to it meanwhile, the
workload comes out as if what was committed had been done in that order, one after another.

- `commitsBy`, `mintedBy`: what one of the writers committed, and the number that it was given.
- `Event.replay`: what a turn makes of the workload if commits are taken for their transformations.
- `writers_serialise`: **every writer commits at most once, its transformation of what is stored
  just before, and replaying all turns gives the workload that is stored in the end**.
-/

namespace InnerLoop

variable {ι α : Type} {w w' : World} {t : List (Event ι)} {name : String}
  {T : ι → DeploymentConfig → Except Failure DeploymentConfig}

/-! ## Replaying -/

/-- The workload that is stored under a name, if there is one. -/
def World.stored (w : World) (name : String) : Option DeploymentConfig :=
  w.cluster.workloads.objects.find? name

theorem World.stored_of_get {d : DeploymentConfig} (h : w.cluster.workloads.get name = .ok d) :
    w.stored name = some d :=
  Store.get_eq_ok_iff.mp h

theorem World.stored_of_objects
    (h : w'.cluster.workloads.objects = w.cluster.workloads.objects) :
    w'.stored name = w.stored name := by
  unfold World.stored
  rw [h]

/-- What a turn makes of the workload of a name. An update of one of `ι` applies its transformation
and gives the next version; an edit of others leaves what it leaves. -/
def Event.replay (name : String) (T : ι → DeploymentConfig → Except Failure DeploymentConfig)
    (d : Option DeploymentConfig) : Event ι → Option DeploymentConfig
  | .asked i (.updateWorkload _) before (.ok _) _ => do
    let next ← (T i (← d)).toOption
    some (Resource.withVersion (toString before.cluster.workloads.nextVersion) next)
  | .asked .. => d
  | .other before after => if after.stored name = before.stored name then d else after.stored name

/-- An edit of others is replayed as what they left. -/
theorem Event.replay_other (w w₁ : World) :
    Event.replay name T (w.stored name) (.other w w₁) = w₁.stored name := by
  show (if w₁.stored name = w.stored name then _ else _) = _
  split
  case isTrue hsame => exact hsame.symm
  case isFalse => rfl

/-! ## What is replayed -/

variable [DecidableEq ι]

/-- The commits of one of `ι`. -/
def commitsBy (i : ι) (t : List (Event ι)) : List Commit := commits (t.map (Event.seenBy i))

/-- The number that was first given out to one of `ι`. -/
def mintedBy (i : ι) (t : List (Event ι)) : Nat := minted (t.map (Event.seenBy i))

theorem commitsBy_cons (i : ι) (e : Event ι) (t : List (Event ι)) :
    commitsBy i (e :: t) = commitsBy i [e] ++ commitsBy i t :=
  commits_append [e.seenBy i] (t.map (Event.seenBy i))

/-- An update that was accepted is a commit of who asked for it. -/
theorem commitsBy_update (i : ι) (sent stored : DeploymentConfig) (before after : World) :
    commitsBy i [.asked i (.updateWorkload sent) before (.ok stored) after] =
      [⟨before, sent, stored, after⟩] := by
  show commits [if i = i then .asked () _ before _ after else .other before after] = _
  rw [if_pos rfl]
  rfl

/-- **One turn**: the answer to a question makes of the workload what it is replayed as. -/
theorem Event.replay_asked {i : ι} {r : Request} {reply : r.Reply} {w₁ : World}
    (h : w.answer r = some (reply, w₁))
    (hT : ∀ c ∈ commitsBy i [.asked i r w reply w₁], c.Transforms name (T i)) :
    Event.replay name T (w.stored name) (.asked i r w reply w₁) = w₁.stored name := by
  cases r with
  | updateWorkload sent =>
    cases reply with
    | error fault =>
      obtain ⟨hsame, -⟩ := Cluster.updateWorkload_eq_error (World.cluster_of_request h)
      exact (World.stored_of_objects (by rw [hsame])).symm
    | ok stored =>
      rw [commitsBy_update] at hT
      obtain ⟨current, hread, hsent, hstored, hwritten⟩ := hT _ List.mem_cons_self
      show ((w.stored name).bind fun d => (T i d).toOption.bind fun next => some _) = _
      rw [World.stored_of_get hread, World.stored_of_get hwritten, Option.bind_some, hsent, hstored]
      rfl
  | _ => exact (World.stored_of_objects (World.quiet_of_answer h id).objects).symm

/-- **A whole run**: if all commits are transformations, replaying the turns gives what is
stored. -/
theorem Runs.replay {p : ι → Program α} (h : Runs p w t w')
    (hT : ∀ i, ∀ c ∈ commitsBy i t, c.Transforms name (T i)) :
    t.foldl (Event.replay name T) (w.stored name) = w'.stored name := by
  have htail : ∀ {e : Event ι} {t : List (Event ι)},
      (∀ i, ∀ c ∈ commitsBy i (e :: t), c.Transforms name (T i)) →
      ∀ i, ∀ c ∈ commitsBy i t, c.Transforms name (T i) := by
    intro e t hT i c hc
    refine hT i c ?_
    rw [commitsBy_cons]
    exact List.mem_append_right _ hc
  induction h with
  | stop => rfl
  | @asked p i r next w w₁ w' reply t hi h rest ih =>
    rw [List.foldl_cons, Event.replay_asked h]
    · exact ih (htail hT)
    · intro c hc
      refine hT i c ?_
      rw [commitsBy_cons]
      exact List.mem_append_left _ hc
  | other h rest ih =>
    rw [List.foldl_cons, Event.replay_other]
    exact ih (htail hT)

/-- **Writers are serialisable**: however they are interleaved with each other and with others,
every writer commits at most once, what it commits is its transformation of what is stored just
before, so nothing that a failed attempt read is in it, and the workload comes out as if the commits
and the edits of others had been applied one after another. -/
theorem writers_serialise {settings : ι → Settings} {writer : ι → Writer} (hw : w.Reachable)
    (h : Runs (fun i => (writer i).program (settings i) name) w t w') :
    (∀ i, WritesOnce name ((writer i).transform (settings i) name (mintedBy i t))
      (t.map (Event.seenBy i))) ∧
    t.foldl (Event.replay name fun i => (writer i).transform (settings i) name (mintedBy i t))
      (w.stored name) = w'.stored name := by
  have honce := fun i => (h.seenBy i).writesOnce hw.sound
  exact ⟨honce, h.replay fun i => (honce i).transforms⟩

/-! ## Two writers that meet -/

/-- A switch of the shop to dev mode, and the setting of an annotation. -/
def shopWriters : Bool → Writer
  | false => .switchToDevMode .empty (.singleton sourceTypeKey sourceTypeLocal) shopBuilder
  | true => .updateAnnotations (.singleton "owner" "red")

/-- Both read the shop before either writes it, so the switch has to read it again. -/
def crossedReads : List (ScriptStep Bool) :=
  [.answer false, .answer true, .answer true, .answer false, .answer false, .pass 10,
    .answer false, .answer false, .answer false]

/-- What happens then, and the world after it. -/
def crossedWrites : List (Event Bool) × World :=
  playTogether crossedReads (fun i => (shopWriters i).program {} "web") shopWorld

theorem crossedWrites_commit : ∀ i, (commitsBy i crossedWrites.1).length = 1 := by decide +kernel

theorem writers_serialise_shop :
    shopWorld.Reachable ∧ (∀ i, (commitsBy i crossedWrites.1).length = 1) ∧
    (∀ i, WritesOnce "web" ((shopWriters i).transform {} "web" (mintedBy i crossedWrites.1))
      (crossedWrites.1.map (Event.seenBy i))) ∧
    crossedWrites.1.foldl
      (Event.replay "web" fun i => (shopWriters i).transform {} "web" (mintedBy i crossedWrites.1))
      (shopWorld.stored "web") = crossedWrites.2.stored "web" :=
  ⟨reachable_shopWorld, crossedWrites_commit,
    writers_serialise reachable_shopWorld (Runs.play crossedReads _ shopWorld)⟩

end InnerLoop
