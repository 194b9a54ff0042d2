import InnerLoop.Proofs.Play
import InnerLoop.Proofs.Switch

/-!
# Marks that are out of date

A switch reads the labels and annotations of a workload once, before its attempts to write, and
writes them in whichever attempt succeeds. An attempt reads the workload anew, but not for its
marks, so the version check of the store does not protect them: what others have put on the workload
since the first read is taken off again.

- `switch_keeps_marks_iff`: **exactly when nothing is lost**: the marks that are on the workload
  just before the update were all there at the first read already.
- `switch_loses_marks`: a run in which an annotation is lost.
-/

namespace InnerLoop

/-- The marks that a switch writes are those of the component. -/
theorem Plan.metadata_of_edit {s : Settings} {component : ComponentMeta} {plan : Plan}
    {current sent : DeploymentConfig} {sourceType : String}
    (h : plan.edit s component current = .ok (sent, sourceType)) :
    sent.metadata.labels = some component.labels ∧
      sent.metadata.annotations = some component.annotations := by
  obtain ⟨wanted, hwanted, h⟩ := bind_eq_ok_iff.mp h
  obtain ⟨_, -, h⟩ := bind_eq_ok_iff.mp h
  obtain ⟨next, hnext, h⟩ := bind_eq_ok_iff.mp h
  cases h
  have hmeta : sent.metadata = { current.metadata with
      labels := wanted.metadata.labels, annotations := wanted.metadata.annotations } := by
    refine metadata_of_prepareUpdate ?_ hnext
    intro k hk d d' hd
    cases plan with
    | toDev builder => cases hk
    | toBuild image =>
      cases hk
      exact metadata_of_stripDevMode hd
  have hmarks : wanted.metadata.labels = some component.labels ∧
      wanted.metadata.annotations = some component.annotations := by
    cases plan with
    | toDev builder => exact metadata_of_wantedInDevMode hwanted
    | toBuild image => exact metadata_of_wantedInBuildMode hwanted
  rw [hmeta]
  exact hmarks

variable {s : Settings} {mode : Mode} {name image : String} {w w' : World}
  {t : List (Event Unit)} {res : Option (Except Failure DeploymentConfig)}

/-- What a switch commits has the labels and annotations of the workload that it read first. -/
theorem marks_of_commit (hw : w.Sound) (h : Run (toMode s mode name image).run w t res w')
    {c : Commit} (hc : c ∈ commits t) :
    ∃ read current, firstRead t = some read ∧ Resource.nameOf read = name ∧
      c.before.cluster.workloads.get read.name = .ok current ∧
      c.after.cluster.workloads.get read.name = .ok c.stored ∧
      Resource.labelsOf c.stored = Resource.labelsOf read ∧
      Resource.annotationsOf c.stored =
        (Resource.annotationsOf read).insert sourceTypeKey mode.sourceType := by
  rcases h.toMode_cases hw with ⟨hnone, -, -⟩ |
    ⟨plan, read, t₁, t₂, w₁, rfl, hnone, -, rfl, hread, hname, hw₁, hrun⟩
  · rw [hnone] at hc
    cases hc
  · rw [commits_append_of_nil hnone] at hc
    cases hrun.switched hw₁ with
    | untouched hnone' _ _ =>
      rw [hnone'] at hc
      cases hc
    | committed c' current sourceType later hone happ _ =>
      rw [hone.commits_eq] at hc
      cases List.mem_singleton.mp hc
      obtain ⟨hlabels, hannotations⟩ := Plan.metadata_of_edit happ.sent
      refine ⟨read, current, hread, hname, happ.read, happ.written, ?_, ?_⟩
      · rw [happ.stored]
        show c.sent.metadata.labels.getD .empty = _
        rw [hlabels]
        rfl
      · rw [happ.stored]
        show c.sent.metadata.annotations.getD .empty = _
        rw [hannotations]
        rfl

/-- **Exactly when nothing is lost**: an update of a switch keeps the marks that are stored just
before it if and only if they were all there, with the same values, at the first read of the switch,
which comes before its attempts. -/
theorem switch_keeps_marks_iff (hw : w.Reachable)
    (h : Run (toMode s mode name image).run w t res w') {c : Commit} (hc : c ∈ commits t) :
    ∃ read current, firstRead t = some read ∧ Resource.nameOf read = name ∧
      c.before.cluster.workloads.get read.name = .ok current ∧
      c.after.cluster.workloads.get read.name = .ok c.stored ∧
      (KeepsMarks current c.stored ↔ KeepsMarks current read) := by
  obtain ⟨read, current, hread, hname, hbefore, hafter, hlabels, hannotations⟩ :=
    marks_of_commit hw.sound h hc
  exact ⟨read, current, hread, hname, hbefore, hafter, keepsMarks_iff hlabels hannotations⟩

/-! ## A lost annotation -/

/-- The shop, after another writer has said who owns it. -/
def ownedShop : DeploymentConfig := shopWorkload.putAnnotations (.singleton "owner" "red")

/-- The shop, where the next update meets another writer. -/
def contendedWorld : World :=
  shopWorld.modifyCluster fun c => { c with pendingConflicts := 1 }

theorem reachable_contendedWorld : contendedWorld.Reachable :=
  .turn reachable_shopWorld (.same rfl rfl)

/-- The switch meets a conflict, and the owner is said during its pause. -/
def ownedMeanwhile : List (ScriptStep Unit) :=
  undisturbed 5 ++ [.file ownedShop, .pass 10] ++ undisturbed 8

/-- What happens then. -/
def contendedSwitch : List (Event Unit) :=
  ((toMode {} .dev "web" "nodejs").run.play ownedMeanwhile contendedWorld).1

/-- The commit takes the annotation off the workload. -/
def Commit.LosesOwner (c : Commit) : Bool :=
  match c.before.cluster.workloads.get (Resource.nameOf c.sent) with
  | .ok d => (Resource.annotationsOf d).find? "owner" = some "red" ∧
      (Resource.annotationsOf c.stored).find? "owner" = none
  | .error _ => false

theorem contendedSwitch_losesOwner : ∃ c ∈ commits contendedSwitch, c.LosesOwner = true :=
  List.any_eq_true.mp (by decide +kernel)

theorem switch_keeps_marks_iff_shop :
    contendedWorld.Reachable ∧ ∃ c ∈ commits contendedSwitch, ∃ read current,
      firstRead contendedSwitch = some read ∧ Resource.nameOf read = "web" ∧
      c.before.cluster.workloads.get read.name = .ok current ∧
      c.after.cluster.workloads.get read.name = .ok c.stored ∧
      (KeepsMarks current c.stored ↔ KeepsMarks current read) := by
  obtain ⟨c, hc, -⟩ := contendedSwitch_losesOwner
  exact ⟨reachable_contendedWorld, c, hc, switch_keeps_marks_iff reachable_contendedWorld
    (Run.play ownedMeanwhile (toMode {} .dev "web" "nodejs").run contendedWorld) hc⟩

/-- **A mark can be lost**: not every update of a switch keeps the marks that are stored just before
it. -/
theorem switch_loses_marks :
    ¬ ∀ {s : Settings} {mode : Mode} {name image : String} {w w' : World} {t : List (Event Unit)}
      {res : Option (Except Failure DeploymentConfig)}, w.Reachable →
      Run (toMode s mode name image).run w t res w' → ∀ c ∈ commits t, ∀ current,
      c.before.cluster.workloads.get (Resource.nameOf c.sent) = .ok current →
      KeepsMarks current c.stored := by
  intro h
  obtain ⟨c, hc, hloses⟩ := contendedSwitch_losesOwner
  have hrun := Run.play ownedMeanwhile (toMode {} .dev "web" "nodejs").run contendedWorld
  unfold Commit.LosesOwner at hloses
  split at hloses
  · rename_i d hd
    obtain ⟨hthere, hgone⟩ := of_decide_eq_true hloses
    have hkept := (h reachable_contendedWorld hrun c hc d hd).annotations "owner" "red" (by decide)
      hthere
    rw [hgone] at hkept
    cases hkept
  · cases hloses

end InnerLoop
