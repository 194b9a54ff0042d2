import InnerLoop.Proofs.Switch

/-!
# What each writer commits

The operations that write a workload differ in what they do before the write and after it, and in
what they make of the workload. What they make of it is a function of the one workload that they
write over.

- `Writer`, `Writer.program`, `Writer.transform`: the operations, and what each makes of a workload.
- `Commit.Transforms`: a commit puts the outcome of a transformation in the place of what that was
  applied to.
- `Run.writesOnce`: **every writer commits at most once, and then its transformation of what is
  stored just before**.
-/

namespace InnerLoop

open Operation

/-! ## The writers -/

/-- The operations that write the workload of a component. -/
inductive Writer where
  | addEnvVars (vars : List EnvVar)
  | updateAnnotations (annotations : TextMap)
  | addClaim (claim path : String)
  | removeClaim (claim : String)
  | switchToDevMode (labels annotations : TextMap) (builder : BuilderImage)
  | switchToBuildMode (labels annotations : TextMap) (image : ImageReference)

/-- What a patch makes of a workload: the one that is wanted in view of it, put over it. -/
def patchOver (name : String) (desired : DeploymentConfig → Except Failure DeploymentConfig)
    (hook : Option PatchHook) (d : DeploymentConfig) : Except Failure DeploymentConfig := do
  let wanted ← desired d
  prepareUpdate name d wanted hook

/-- The program of an operation whose result does not matter. -/
def Operation.forget {α : Type} (x : Operation α) : Program Unit := x.run.bind fun _ => .done ()

namespace Writer

/-- What a writer does to the component of a name. -/
def program (s : Settings) (name : String) : Writer → Program Unit
  | addEnvVars vars => (InnerLoop.addEnvVars s name vars).forget
  | updateAnnotations annotations => (InnerLoop.updateAnnotations s name annotations).forget
  | addClaim claim path => (InnerLoop.addClaim s name claim path).forget
  | removeClaim claim => (InnerLoop.removeClaim s claim name).forget
  | switchToDevMode labels annotations builder =>
    (InnerLoop.switchToDevMode s { name, labels, annotations } builder).forget
  | switchToBuildMode labels annotations image =>
    (InnerLoop.switchToBuildMode s { name, labels, annotations } image).forget

/-- What a writer makes of the workload of a name. A claim that is added gets a volume that is named
after `n`. -/
def transform (s : Settings) (name : String) (n : Nat) :
    Writer → DeploymentConfig → Except Failure DeploymentConfig
  | addEnvVars vars, d => d.putEnvVars name vars
  | updateAnnotations annotations, d => .ok (d.putAnnotations annotations)
  | addClaim claim path, d => d.attachClaim name claim (newVolumeName claim n) path
  | removeClaim claim, d => (d.detachClaim name claim).map Prod.fst
  | switchToDevMode labels annotations builder, d =>
    patchOver name (wantedInDevMode s { name, labels, annotations } builder) none d
  | switchToBuildMode labels annotations image, d =>
    patchOver name (wantedInBuildMode { name, labels, annotations } image) (some stripDevMode) d

end Writer

/-! ## Transformations -/

/-- A commit puts the outcome of a transformation in the place of the workload that it was applied
to, under the next version. -/
def Commit.Transforms (c : Commit) (name : String)
    (T : DeploymentConfig → Except Failure DeploymentConfig) : Prop :=
  ∃ current, c.before.cluster.workloads.get name = .ok current ∧ T current = .ok c.sent ∧
    c.stored = Resource.withVersion (toString c.before.cluster.workloads.nextVersion) c.sent ∧
    c.after.cluster.workloads.get name = .ok c.stored

/-- At most one workload was written, and that was the outcome of a transformation. -/
structure WritesOnce (name : String) (T : DeploymentConfig → Except Failure DeploymentConfig)
    (t : List (Event Unit)) : Prop where
  atMostOnce : (commits t).length ≤ 1
  transforms : ∀ c ∈ commits t, c.Transforms name T

section

variable {β γ : Type} {name : String} {f : Edit β}
  {T : DeploymentConfig → Except Failure DeploymentConfig} {t t₁ t₂ : List (Event Unit)}

/-- An edit makes the workload that a transformation makes. -/
def Edit.Makes (f : Edit β) (T : DeploymentConfig → Except Failure DeploymentConfig) : Prop :=
  ∀ d d' b, f d = .ok (d', b) → T d = .ok d'

theorem Commit.Applies.transforms {c : Commit} {current : DeploymentConfig} {b : β}
    (h : c.Applies name f current b) (hf : f.Makes T) : c.Transforms name T :=
  ⟨current, h.read, hf _ _ _ h.sent, h.stored, h.written⟩

theorem WritesOnce.nothing (h : commits t = []) : WritesOnce name T t := by
  refine ⟨?_, ?_⟩
  · rw [h]
    exact Nat.zero_le _
  · intro c hc
    rw [h] at hc
    cases hc

theorem WritesOnce.single {c : Commit} (h : commits t = [c]) (hc : c.Transforms name T) :
    WritesOnce name T t := by
  refine ⟨?_, ?_⟩
  · rw [h]
    exact Nat.le_refl _
  · intro c' hc'
    rw [h, List.mem_singleton] at hc'
    rw [hc']
    exact hc

/-- Turns without commits before it do not matter. -/
theorem WritesOnce.prepend (h₁ : commits t₁ = []) (h₂ : WritesOnce name T t₂) :
    WritesOnce name T (t₁ ++ t₂) := by
  have hcommits : commits (t₁ ++ t₂) = commits t₂ := commits_append_of_nil h₁
  exact ⟨hcommits ▸ h₂.atMostOnce, hcommits ▸ h₂.transforms⟩

theorem Edited.writesOnce {answer : DeploymentConfig → β → γ} {res : Option (Except Failure γ)}
    (h : Edited name f answer t res) (hf : f.Makes T) : WritesOnce name T t := by
  cases h with
  | untouched h _ => exact .nothing h
  | committed c current b h happ _ => exact .single h (happ.transforms hf)

theorem Switched.writesOnce {s : Settings} {component : ComponentMeta} {plan : Plan}
    {res : Option (Except Failure DeploymentConfig)} (h : Switched s component plan t res)
    (hf : (plan.edit s component).Makes T) : WritesOnce component.name T t := by
  cases h with
  | untouched h _ _ => exact .nothing h
  | committed c current sourceType later hone happ _ =>
    exact .single hone.commits_eq (happ.transforms hf)

theorem makes_silently : Edit.Makes (silently T) T := fun _ _ _ h => silently_eq_ok h

theorem makes_fst : f.Makes fun d => (f d).map Prod.fst := by
  intro d d' b h
  show (f d).map Prod.fst = .ok d'
  rw [h]
  rfl

theorem makes_patchEdit {desired : DeploymentConfig → Except Failure DeploymentConfig}
    {hook : Option PatchHook} :
    (patchEdit name desired hook).Makes (patchOver name desired hook) := by
  intro d d' b h
  obtain ⟨wanted, hwanted, h⟩ := bind_eq_ok_iff.mp h
  obtain ⟨_, -, h⟩ := bind_eq_ok_iff.mp h
  obtain ⟨next, hnext, h⟩ := bind_eq_ok_iff.mp h
  cases h
  exact bind_eq_ok_iff.mpr ⟨wanted, hwanted, hnext⟩

end

/-! ## Runs of a writer -/

/-- The number that a turn gave out, if it gave out one. -/
def Event.minted? {ι : Type} : Event ι → Option Nat
  | .asked _ .mint _ n _ => some n
  | _ => none

/-- The number that was given out first; zero if there was none. -/
def minted {ι : Type} (t : List (Event ι)) : Nat := (t.findSome? Event.minted?).getD 0

section

variable {w w' : World} {t : List (Event Unit)} {s : Settings} {name : String}

/-- A change in place writes once what the change makes, since it is tried again as a whole. -/
theorem Run.writesOnce_change {β : Type} {activity : Activity} {change : Edit β}
    {T : DeploymentConfig → Except Failure DeploymentConfig} {res : Option (Except Failure β)}
    (hchange : change.KeepsIdentity) (hmakes : change.Makes T) (hw : w.Sound)
    (h : Run (changeWorkload s name activity change).run w t res w') : WritesOnce name T t := by
  obtain ⟨r, hrun, -⟩ := h.map_cases
  rw [changeOnce_eq] at hrun
  have hedited : Edited name change (fun _ b => b) t r :=
    hrun.edited_retrying (fun hw h => h.edited_once hchange hw) hw
  exact hedited.writesOnce hmakes

theorem Idle.findSome?_minted {t : List (Event Unit)} (h : Idle t) :
    t.findSome? Event.minted? = none := by
  refine List.findSome?_eq_none_iff.mpr ?_
  intro e he
  unfold Event.minted?
  split
  · exact (h _ he).elim
  · rfl

/-- The number that was asked for is the one that was given out first. -/
theorem Run.minted_of_ask {n : Nat} {t₂ : List (Event Unit)}
    (h : Run (ask .mint).run w t (some (.ok n)) w') : minted (t ++ t₂) = n := by
  obtain ⟨t₃, t₄, w₁, w₂, rfl, hidle, -⟩ := h.ask_cases
  unfold minted
  rw [List.append_assoc, List.findSome?_append, hidle.findSome?_minted]
  rfl

/-- A claim is added under the number that was asked for before all attempts. -/
theorem Run.writesOnce_addClaim {claim path : String} {res : Option (Except Failure String)}
    (hw : w.Sound) (h : Run (addClaim s name claim path).run w t res w') :
    WritesOnce name (·.attachClaim name claim (newVolumeName claim (minted t)) path) t := by
  have hask : (ask .mint).Asks fun r => ¬ r.IsUpdate := .ask id
  rcases h.operation_cases with ⟨-, hmint⟩ | ⟨e, -, hmint⟩ | ⟨n, t₁, t₂, w₁, rfl, hmint, hrest⟩
  · exact .nothing (commits_eq_nil (hmint.forall_asked hask))
  · exact .nothing (commits_eq_nil (hmint.forall_asked hask))
  · have hbefore : commits t₁ = [] := commits_eq_nil (hmint.forall_asked hask)
    rw [hmint.minted_of_ask]
    rw [run_bind_pure] at hrest
    obtain ⟨r, hchange, -⟩ := hrest.map_cases
    exact .prepend hbefore (hchange.writesOnce_change (keepsIdentity_attachClaim _ _ _ _)
      makes_silently (hmint.turns.sound hw))

/-- **Every writer commits at most once**, and what it commits is its transformation of what is
stored just before. -/
theorem Run.writesOnce {writer : Writer} {res : Option Unit} (hw : w.Sound)
    (h : Run (writer.program s name) w t res w') :
    WritesOnce name (writer.transform s name (minted t)) t := by
  cases writer with
  | addEnvVars vars =>
    obtain ⟨r, hrun, -⟩ := h.map_cases
    exact hrun.writesOnce_change (keepsIdentity_putEnvVars name vars) makes_silently hw
  | updateAnnotations annotations =>
    obtain ⟨r, hrun, -⟩ := h.map_cases
    exact hrun.writesOnce_change (keepsIdentity_putAnnotations annotations) makes_silently hw
  | addClaim claim path =>
    obtain ⟨r, hrun, -⟩ := h.map_cases
    exact hrun.writesOnce_addClaim hw
  | removeClaim claim =>
    obtain ⟨r, hrun, -⟩ := h.map_cases
    exact hrun.writesOnce_change (keepsIdentity_detachClaim name claim) makes_fst hw
  | switchToDevMode labels annotations builder =>
    obtain ⟨r, hrun, -⟩ := h.map_cases
    rw [switchToDevMode_eq] at hrun
    exact (hrun.switched hw).writesOnce makes_patchEdit
  | switchToBuildMode labels annotations image =>
    obtain ⟨r, hrun, -⟩ := h.map_cases
    rw [switchToBuildMode_eq] at hrun
    exact (hrun.switched hw).writesOnce makes_patchEdit

end

end InnerLoop
