import InnerLoop.Operation.Switch
import InnerLoop.Proofs.Descriptor
import InnerLoop.Proofs.Edit

/-!
# What writes do to the metadata

Every write keeps the name and the version that it read, so that the store can tell whether it is
late. Labels and annotations are kept by changes in place; a patch sets them to those of the
workload that is wanted.

- `metadata_of_prepareUpdate`: the metadata of a patched workload.
- `keepsIdentity_patchEdit` and its like: all edits keep the name and the version.
- `KeepsMarks`: a workload has the labels and annotations of another one, but for the source type.
-/

namespace InnerLoop

open DeploymentConfig

variable {d d' current desired : DeploymentConfig} {name : String}

/-! ## Changes in place -/

theorem metadata_of_modifyPrimary {f : Container → Container}
    (h : d.modifyPrimary name f = .ok d') : d'.metadata = d.metadata := by
  obtain ⟨_, -, h⟩ := bind_eq_ok_iff.mp h
  cases h
  rfl

theorem metadata_of_attachClaim {claim volume path : String}
    (h : d.attachClaim name claim volume path = .ok d') : d'.metadata = d.metadata := by
  unfold attachClaim at h
  split at h
  · cases h
  · obtain ⟨d₁, hd₁, h⟩ := bind_eq_ok_iff.mp h
    cases h
    show d₁.metadata = d.metadata
    exact metadata_of_modifyPrimary hd₁

theorem metadata_of_detachClaim {claim volume : String}
    (h : d.detachClaim name claim = .ok (d', volume)) : d'.metadata = d.metadata := by
  unfold detachClaim at h
  split at h
  · cases h
  · obtain ⟨mounts, -, h⟩ := bind_eq_ok_iff.mp h
    dsimp only at h
    split at h
    · cases h
    · obtain ⟨d₁, hd₁, h⟩ := bind_eq_ok_iff.mp h
      cases h
      show d₁.metadata = d.metadata
      exact metadata_of_modifyPrimary hd₁
  · cases h

/-! ## Patches -/

theorem metadata_of_copyForward (h : copyForward name current desired = .ok d) :
    d.metadata = desired.metadata := by
  obtain ⟨live, -, h⟩ := bind_eq_ok_iff.mp h
  dsimp only at h
  generalize hm : DeploymentConfig.modifyPrimary _ _ _ = carried at h
  cases carried with
  | error e => cases h
  | ok d₁ =>
    cases h
    have hmeta := metadata_of_modifyPrimary hm
    exact hmeta

theorem metadata_of_stripDevMode (h : stripDevMode current desired = .ok d) :
    d.metadata = desired.metadata := by
  obtain ⟨_, -, h⟩ := bind_eq_ok_iff.mp h
  have hmeta := metadata_of_modifyPrimary h
  exact hmeta

/-- A patch puts a workload with the metadata that is wanted over the live one. -/
theorem prepareUpdate_eq_ok {hook : Option PatchHook}
    (h : prepareUpdate name current desired hook = .ok d) :
    ∃ carried next, copyForward name current desired = .ok carried ∧
      (hook = none → next = carried) ∧ (∀ k, hook = some k → k current carried = .ok next) ∧
      d = current.overwrite next := by
  obtain ⟨_, -, h⟩ := bind_eq_ok_iff.mp h
  obtain ⟨carried, hcarried, h⟩ := bind_eq_ok_iff.mp h
  cases hook with
  | none =>
    cases h
    exact ⟨carried, carried, hcarried, fun _ => rfl, fun _ hk => (nomatch hk), rfl⟩
  | some k =>
    obtain ⟨next, hnext, h⟩ := bind_eq_ok_iff.mp h
    cases h
    refine ⟨carried, next, hcarried, fun hk => (nomatch hk), ?_, rfl⟩
    intro k' hk
    cases hk
    exact hnext

/-- The metadata of a patched workload is that of the live one, with the labels and annotations that
are wanted. -/
theorem metadata_of_prepareUpdate {hook : Option PatchHook}
    (hhook : ∀ k, hook = some k → ∀ d d', k current d = .ok d' → d'.metadata = d.metadata)
    (h : prepareUpdate name current desired hook = .ok d) :
    d.metadata = { current.metadata with
      labels := desired.metadata.labels
      annotations := desired.metadata.annotations } := by
  obtain ⟨carried, next, hcarried, hnone, hsome, rfl⟩ := prepareUpdate_eq_ok h
  have hnext : next.metadata = desired.metadata := by
    rw [← metadata_of_copyForward hcarried]
    cases hook with
    | none => rw [hnone rfl]
    | some k => exact hhook k rfl _ _ (hsome k rfl)
  show { current.metadata with
    labels := next.metadata.labels, annotations := next.metadata.annotations } = _
  rw [hnext]

/-! ## Edits keep the name and the version -/

/-- What keeps all metadata keeps the name and the version. -/
theorem Edit.keepsIdentity_of_metadata {β : Type} {f : Edit β}
    (hf : ∀ d d' b, f d = .ok (d', b) → d'.metadata = d.metadata) : f.KeepsIdentity := by
  intro d d' b h
  have hmeta : Resource.metadata d' = Resource.metadata d := hf d d' b h
  unfold Resource.nameOf Resource.versionOf
  rw [hmeta]
  exact ⟨rfl, rfl⟩

theorem silently_eq_ok {f : DeploymentConfig → Except Failure DeploymentConfig} {b : Unit}
    (h : silently f d = .ok (d', b)) : f d = .ok d' := by
  obtain ⟨d₁, hd₁, h⟩ := map_eq_ok_iff.mp h
  cases h
  exact hd₁

theorem silently_eq_error {f : DeploymentConfig → Except Failure DeploymentConfig} {e : Failure}
    (h : silently f d = .error e) : f d = .error e := map_eq_error_iff.mp h

theorem keepsIdentity_attachClaim (name claim volume path : String) :
    Edit.KeepsIdentity (silently (·.attachClaim name claim volume path)) :=
  Edit.keepsIdentity_of_metadata fun _ _ _ h => metadata_of_attachClaim (silently_eq_ok h)

theorem keepsIdentity_detachClaim (name claim : String) :
    Edit.KeepsIdentity (·.detachClaim name claim) :=
  Edit.keepsIdentity_of_metadata fun _ _ _ h => metadata_of_detachClaim h

theorem keepsIdentity_putEnvVars (name : String) (vars : List EnvVar) :
    Edit.KeepsIdentity (silently (·.putEnvVars name vars)) :=
  Edit.keepsIdentity_of_metadata fun _ _ _ h => metadata_of_modifyPrimary (silently_eq_ok h)

theorem keepsIdentity_putAnnotations (annotations : TextMap) :
    Edit.KeepsIdentity (silently fun d => .ok (d.putAnnotations annotations)) := by
  intro d d' b h
  cases silently_eq_ok h
  exact ⟨rfl, rfl⟩

theorem keepsIdentity_patchEdit (name : String)
    (desired : DeploymentConfig → Except Failure DeploymentConfig) (hook : Option PatchHook) :
    (patchEdit name desired hook).KeepsIdentity := by
  intro d d' b h
  obtain ⟨wanted, -, h⟩ := bind_eq_ok_iff.mp h
  obtain ⟨_, -, h⟩ := bind_eq_ok_iff.mp h
  obtain ⟨next, hnext, h⟩ := bind_eq_ok_iff.mp h
  cases h
  obtain ⟨_, _, -, -, -, rfl⟩ := prepareUpdate_eq_ok hnext
  exact ⟨rfl, rfl⟩

/-! ## Labels and annotations -/

/-- All labels of a workload are on another one, with their values, and so are all its annotations
but the source type. -/
structure KeepsMarks (d d' : DeploymentConfig) : Prop where
  labels : ∀ k v, (Resource.labelsOf d).find? k = some v → (Resource.labelsOf d').find? k = some v
  annotations : ∀ k v, k ≠ sourceTypeKey → (Resource.annotationsOf d).find? k = some v →
    (Resource.annotationsOf d').find? k = some v

/-- A workload with the marks of another one, but for the source type, keeps what that one keeps. -/
theorem keepsMarks_iff {d d' e : DeploymentConfig} {sourceType : String}
    (hlabels : Resource.labelsOf d' = Resource.labelsOf e)
    (hannotations : Resource.annotationsOf d' =
      (Resource.annotationsOf e).insert sourceTypeKey sourceType) :
    KeepsMarks d d' ↔ KeepsMarks d e := by
  have hfind : ∀ k, k ≠ sourceTypeKey →
      (Resource.annotationsOf d').find? k = (Resource.annotationsOf e).find? k := by
    intro k hk
    rw [hannotations, SortedMap.find?_insert_of_ne _ _ hk]
  constructor
  · intro h
    refine ⟨fun k v hv => hlabels ▸ h.labels k v hv, fun k v hk hv => ?_⟩
    rw [← hfind k hk]
    exact h.annotations k v hk hv
  · intro h
    refine ⟨fun k v hv => hlabels.symm ▸ h.labels k v hv, fun k v hk hv => ?_⟩
    rw [hfind k hk]
    exact h.annotations k v hk hv

theorem metadata_of_wantedInDevMode {s : Settings} {component : ComponentMeta}
    {builder : BuilderImage} (h : wantedInDevMode s component builder current = .ok d) :
    d.metadata.labels = some component.labels ∧
      d.metadata.annotations = some component.annotations := by
  obtain ⟨live, -, h⟩ := bind_eq_ok_iff.mp h
  cases hwanted : devModeWorkload component current live builder s.supervisorImage with
  | error e => rw [hwanted] at h; cases h
  | ok wanted =>
    rw [hwanted] at h
    cases h
    obtain ⟨_, -, h⟩ := bind_eq_ok_iff.mp hwanted
    obtain ⟨_, -, h⟩ := bind_eq_ok_iff.mp h
    cases h
    exact ⟨rfl, rfl⟩

theorem metadata_of_wantedInBuildMode {component : ComponentMeta} {image : ImageReference}
    (h : wantedInBuildMode component image current = .ok d) :
    d.metadata.labels = some component.labels ∧
      d.metadata.annotations = some component.annotations := by
  obtain ⟨live, -, h⟩ := bind_eq_ok_iff.mp h
  cases h
  exact ⟨rfl, rfl⟩

end InnerLoop
