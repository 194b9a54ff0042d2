import InnerLoop.Operation.Switch

/-!
# Refusals

What is computed without asking the cluster anything fails in one of two ways: an argument does not
make sense, or the live workload is not built as it has to be. So a caller that sees another kind of
failure knows that it came from an answer of the cluster.

- `Failure.IsRefusal`: the failure is one of these two kinds.
- `Refusing`: a computation fails only so. Every step of a switch between two requests does.
-/

namespace InnerLoop

variable {α β : Type}

/-! ## Results of steps in a row -/

theorem bind_eq_ok_iff {ε : Type} {x : Except ε α} {f : α → Except ε β} {b : β} :
    (x >>= f) = .ok b ↔ ∃ a, x = .ok a ∧ f a = .ok b := by
  cases x with
  | error e => exact ⟨fun h => (nomatch h), fun ⟨_, h, _⟩ => (nomatch h)⟩
  | ok a => exact ⟨fun h => ⟨a, rfl, h⟩, fun ⟨_, h, hf⟩ => by cases h; exact hf⟩

theorem bind_eq_error_iff {ε : Type} {x : Except ε α} {f : α → Except ε β} {e : ε} :
    (x >>= f) = .error e ↔ x = .error e ∨ ∃ a, x = .ok a ∧ f a = .error e := by
  cases x with
  | error e' => exact ⟨fun h => .inl (by cases h; rfl), fun h => by
      rcases h with h | ⟨_, h, _⟩
      · cases h; rfl
      · cases h⟩
  | ok a => exact ⟨fun h => .inr ⟨a, rfl, h⟩, fun h => by
      rcases h with h | ⟨_, h, hf⟩
      · cases h
      · cases h; exact hf⟩

theorem map_eq_ok_iff {ε : Type} {x : Except ε α} {f : α → β} {b : β} :
    x.map f = .ok b ↔ ∃ a, x = .ok a ∧ f a = b := by
  cases x with
  | error e => exact ⟨fun h => (nomatch h), fun ⟨_, h, _⟩ => (nomatch h)⟩
  | ok a => exact ⟨fun h => ⟨a, rfl, Except.ok.inj h⟩, fun ⟨_, h, hf⟩ => by cases h; rw [← hf]; rfl⟩

theorem map_eq_error_iff {ε : Type} {x : Except ε α} {f : α → β} {e : ε} :
    x.map f = .error e ↔ x = .error e := by
  cases x with
  | error e' => exact ⟨fun h => by cases h; rfl, fun h => by cases h; rfl⟩
  | ok a => exact ⟨fun h => (nomatch h), fun h => (nomatch h)⟩

/-- The failure is about an argument or about how the live workload is built. -/
def Failure.IsRefusal (f : Failure) : Prop := f.kind = .invalid ∨ f.kind = .corruption

/-- A computation whose only failures are refusals. -/
def Refusing (x : Except Failure α) : Prop := ∀ f, x = .error f → f.IsRefusal

namespace Refusing

theorem ok (a : α) : Refusing (.ok a) := fun _ h => nomatch h

theorem invalid (input : InvalidInput) : Refusing (.error (.invalid input) : Except Failure α) := by
  rintro f ⟨⟩
  exact .inl rfl

theorem corrupt (name : String) (defect : Defect) :
    Refusing (.error (.corrupt name defect) : Except Failure α) := by
  rintro f ⟨⟩
  exact .inr rfl

theorem bind {x : Except Failure α} {f : α → Except Failure β} (hx : Refusing x)
    (hf : ∀ a, Refusing (f a)) : Refusing (x >>= f) := by
  cases x with
  | error e =>
    rintro f ⟨⟩
    exact hx e rfl
  | ok a => exact hf a

theorem within {x : Except Failure α} (hx : Refusing x) (a : Activity) :
    Refusing (Failure.within a x) := by
  cases x with
  | error e =>
    rintro f ⟨⟩
    exact hx e rfl
  | ok a => exact ok _

theorem mapM {f : α → Except Failure β} (hf : ∀ a, Refusing (f a)) (l : List α) :
    Refusing (l.mapM f) := by
  induction l with
  | nil => exact ok _
  | cons a r ih =>
    rw [List.mapM_cons]
    exact (hf a).bind fun b => ih.bind fun bs => ok _

/-! ## Arguments and images -/

theorem parse (image : String) : Refusing (ImageReference.parse image) := by
  unfold ImageReference.parse
  split
  · exact invalid _
  · split
    · exact invalid _
    · exact ok _

theorem parsePortNumber (text : List Char) : Refusing (parsePortNumber text) := by
  unfold InnerLoop.parsePortNumber
  split
  · exact invalid _
  · split
    · exact ok _
    · exact invalid _

theorem parseProtocol (protocol : Option String) : Refusing (parseProtocol protocol) := by
  unfold InnerLoop.parseProtocol
  split
  · exact ok _
  · dsimp only
    split
    · exact ok _
    · exact invalid _

theorem parsePort (spec : String) : Refusing (parsePort spec) := by
  unfold InnerLoop.parsePort
  split
  · exact (parsePortNumber _).bind fun _ => ok _
  · exact (parsePortNumber _).bind fun _ => (parseProtocol _).bind fun _ => ok _
  · exact invalid _

theorem ports (b : BuilderImage) : Refusing b.ports := by
  refine mapM (fun text => ?_) _
  unfold BuilderImage.exposedPort
  split
  · exact parsePort text
  · exact invalid _

theorem scriptsLocation (url : String) : Refusing (BuilderImage.scriptsLocation url) := by
  unfold BuilderImage.scriptsLocation
  split
  · exact ok _
  · split
    · exact ok _
    · split
      · exact ok _
      · exact invalid _

theorem bootstrapEnv (b : BuilderImage) : Refusing b.bootstrapEnv := by
  refine bind ?_ fun _ => ok _
  unfold BuilderImage.paths
  dsimp only
  split
  · exact ok _
  · exact (scriptsLocation _).bind fun _ => ok _

/-! ## Workloads -/

theorem primary (d : DeploymentConfig) (name : String) : Refusing (d.primary name) := by
  unfold DeploymentConfig.primary
  split
  · exact ok _
  · exact corrupt _ _
  · exact corrupt _ _

theorem modifyPrimary (d : DeploymentConfig) (name : String) (f : Container → Container) :
    Refusing (d.modifyPrimary name f) :=
  (primary d name).bind fun _ => ok _

theorem devModeWorkload (component : ComponentMeta) (current : DeploymentConfig) (live : Container)
    (builder : BuilderImage) (supervisorImage : String) :
    Refusing (devModeWorkload component current live builder supervisorImage) :=
  (bootstrapEnv builder).bind fun _ => (ports builder).bind fun _ => ok _

theorem wantedSourceType (d : DeploymentConfig) : Refusing (wantedSourceType d) := by
  unfold InnerLoop.wantedSourceType
  split
  · exact ok _
  · exact invalid _

theorem copyForward (name : String) (current desired : DeploymentConfig) :
    Refusing (copyForward name current desired) := by
  refine (primary current name).bind fun live => ?_
  dsimp only
  generalize DeploymentConfig.modifyPrimary _ _ _ = carried
  cases carried with
  | error e => exact invalid _
  | ok d => exact ok _

theorem prepareUpdate (name : String) (current desired : DeploymentConfig)
    {hook : Option PatchHook} (hhook : ∀ h ∈ hook, ∀ d, Refusing (h current d)) :
    Refusing (prepareUpdate name current desired hook) := by
  refine (primary current name).bind fun _ => (copyForward name current desired).bind fun d => ?_
  cases hook with
  | none => exact (ok d).bind fun _ => ok _
  | some h => exact (hhook h rfl d).bind fun _ => ok _

theorem checkDevMode (d : DeploymentConfig) : Refusing (checkDevMode d) := by
  unfold InnerLoop.checkDevMode
  dsimp only
  split
  · exact corrupt _ _
  · split
    · exact corrupt _ _
    · refine bind ((primary d d.name).bind fun _ => ok _) fun mounts => ?_
      split
      · exact corrupt _ _
      · exact ok _

theorem stripDevMode (current desired : DeploymentConfig) :
    Refusing (stripDevMode current desired) :=
  (checkDevMode current).bind fun _ => modifyPrimary _ _ _

theorem wantedInDevMode (s : Settings) (component : ComponentMeta) (builder : BuilderImage)
    (current : DeploymentConfig) : Refusing (wantedInDevMode s component builder current) :=
  (primary current component.name).bind fun live =>
    (devModeWorkload component current live builder s.supervisorImage).within _

theorem wantedInBuildMode (component : ComponentMeta) (image : ImageReference)
    (current : DeploymentConfig) : Refusing (wantedInBuildMode component image current) :=
  (primary current component.name).bind fun _ => ok _

end Refusing

end InnerLoop
