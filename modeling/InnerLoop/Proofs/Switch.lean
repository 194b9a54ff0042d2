import InnerLoop.Operation.Component
import InnerLoop.Proofs.Patched

/-!
# What a switch of the mode did

A switch looks up its image, reads the workload for its name and marks, patches it and then looks
after the claim. The two modes differ only in what they put into these steps.

- `Mode`, `toMode`: the two switches as one.
- `Plan`, `toMode_eq`: the steps of a switch once its image is known.
- `Run.toMode_cases`: before its patch a switch only looks.
- `Switched`, `Run.switched`: what a run of a switch did, and how it can end after that.
-/

namespace InnerLoop

open Operation

/-- The modes that a component can be switched to. -/
inductive Mode where
  | dev | build
  deriving DecidableEq

namespace Mode

/-- The source type of a mode. -/
def sourceType : Mode → String
  | dev => sourceTypeLocal
  | build => sourceTypeGit

/-- Whether there is a claim for the application in a mode. -/
def hasClaim : Mode → Bool
  | dev => true
  | build => false

/-- The patch of a switch, as it is reported when a later step failed. -/
def completed : Mode → String → Activity
  | dev, component => .switchToDev component
  | build, component => .switchToBuild component

/-- The step of a switch that looks after the claim. -/
def claimStage : Mode → String → Activity
  | dev, component => .createClaim (appDataClaim component)
  | build, component => .deleteClaim (appDataClaim component)

end Mode

/-- Switches a component to a mode. -/
def toMode (s : Settings) : Mode → (name image : String) → Operation DeploymentConfig
  | .dev => toDevMode s
  | .build => toBuildMode s

/-! ## The steps -/

/-- A switch whose image is known. -/
inductive Plan where
  | toDev (builder : BuilderImage)
  | toBuild (image : ImageReference)

namespace Plan

/-- The mode that is switched to. -/
def mode : Plan → Mode
  | toDev _ => .dev
  | toBuild _ => .build

/-- The workload that is wanted in view of the live one. -/
def desired (s : Settings) (component : ComponentMeta) :
    Plan → DeploymentConfig → Except Failure DeploymentConfig
  | toDev builder => wantedInDevMode s component builder
  | toBuild image => wantedInBuildMode component image

/-- What else is done to the wanted workload. -/
def hook : Plan → Option PatchHook
  | toDev _ => none
  | toBuild _ => some stripDevMode

/-- The edit that the switch is. -/
def edit (s : Settings) (component : ComponentMeta) (plan : Plan) : Edit String :=
  patchEdit component.name (plan.desired s component) plan.hook

/-- The step that looks after the claim. -/
def settle (s : Settings) (component : String) : Plan → Operation Unit
  | toDev _ => ensureClaim s component
  | toBuild _ => ExceptT.mk ((clearClaim s (appDataClaim component)).run.bind fun r =>
      .done (r.mapError (.partialCompletion (.switchToBuild component)
        (.deleteClaim (appDataClaim component)))))

/-- Looks up the image of a switch. -/
def resolve : Mode → String → Operation Plan
  | .dev, image => do
    let builder ← resolveBuilder image
    return toDev builder
  | .build, image => do
    let reference ← given (ImageReference.parse image)
    return toBuild reference

end Plan

/-- Patches a workload and then looks after its claim. -/
def switchBy (s : Settings) (component : ComponentMeta) (plan : Plan) :
    Operation DeploymentConfig := do
  let d ← patchWorkloadWith s component.name (plan.desired s component) plan.hook
  plan.settle s component.name
  return d

theorem switchToDevMode_eq (s : Settings) (component : ComponentMeta) (builder : BuilderImage) :
    switchToDevMode s component builder = switchBy s component (.toDev builder) := rfl

theorem switchToBuildMode_eq (s : Settings) (component : ComponentMeta) (image : ImageReference) :
    switchToBuildMode s component image = switchBy s component (.toBuild image) := rfl

theorem toMode_eq (s : Settings) (mode : Mode) (name image : String) :
    toMode s mode name image = (Plan.resolve mode image >>= fun plan =>
      liveMeta name mode.sourceType >>= fun component => switchBy s component plan) := by
  cases mode with
  | dev =>
    unfold toMode toDevMode Plan.resolve
    rw [bind_assoc]
    exact bind_congr fun builder => (pure_bind _ _).symm
  | build =>
    unfold toMode toBuildMode Plan.resolve
    rw [bind_assoc]
    exact bind_congr fun reference => (pure_bind _ _).symm

/-! ## Before the patch -/

/-- The workload that a turn read, if it read one. -/
def Event.read? {ι : Type} : Event ι → Option DeploymentConfig
  | .asked _ (.getWorkload _) _ (.ok d) _ => some d
  | _ => none

/-- The workload that was read first. -/
def firstRead {ι : Type} (t : List (Event ι)) : Option DeploymentConfig := t.findSome? Event.read?

/-- No claim was asked to be created or deleted. -/
def LeavesClaims {ι : Type} (t : List (Event ι)) : Prop :=
  ∀ e ∈ t, e.Asked fun r => ¬ r.ChangesClaims

/-- The question is a look at an image or at a workload. -/
def Request.IsLook : Request → Prop
  | .imageMetadata .. => True
  | .getWorkload _ => True
  | _ => False

/-- The question is a look at an image. -/
def Request.IsImageLook : Request → Prop
  | .imageMetadata .. => True
  | _ => False

theorem Request.IsImageLook.isLook (r : Request) (h : r.IsImageLook) : r.IsLook := by
  cases r with
  | imageMetadata => trivial
  | _ => exact h.elim

section

variable {w w' : World} {t t₁ t₂ : List (Event Unit)} {s : Settings} {mode : Mode}
  {name image : String}

theorem LeavesClaims.append (h₁ : LeavesClaims t₁) (h₂ : LeavesClaims t₂) :
    LeavesClaims (t₁ ++ t₂) :=
  fun e he => (List.mem_append.mp he).elim (h₁ e) (h₂ e)

theorem Event.Asked.mono {P Q : Request → Prop} (h : ∀ r, P r → Q r) {e : Event Unit}
    (he : e.Asked P) : e.Asked Q := by
  cases e with
  | asked _ r => exact h r he
  | other => trivial

/-- Who only looks commits nothing and leaves claims alone. -/
theorem quiet_of_looks (h : ∀ e ∈ t, e.Asked Request.IsLook) : commits t = [] ∧ LeavesClaims t := by
  refine ⟨commits_eq_nil fun e he => (h e he).mono ?_, fun e he => (h e he).mono ?_⟩
  · intro r hr hupdate
    cases r with
    | updateWorkload => exact hr
    | _ => exact hupdate
  · intro r hr hchange
    cases r with
    | createClaim => exact hr
    | deleteClaim => exact hr
    | _ => exact hchange

theorem firstRead_append : firstRead (t₁ ++ t₂) = (firstRead t₁).or (firstRead t₂) :=
  List.findSome?_append

/-- Who looks at images only reads no workload. -/
theorem firstRead_eq_none (h : ∀ e ∈ t, e.Asked Request.IsImageLook) : firstRead t = none := by
  refine List.findSome?_eq_none_iff.mpr ?_
  intro e he
  unfold Event.read?
  split
  · exact (h _ he).elim
  · rfl

theorem Idle.firstRead_eq_none (h : Idle t) : firstRead t = none :=
  InnerLoop.firstRead_eq_none fun e he => (h e he).mono fun _ hf => hf.elim

theorem asks_resolve : (Plan.resolve mode image).Asks Request.IsImageLook := by
  cases mode with
  | dev =>
    refine .bind (.bind (.given _) fun _ => .bind (.within (.ofCluster ?_) _) fun _ => .pure _)
      fun _ => .pure _
    exact ⟨trivial, fun _ => trivial⟩
  | build => exact .bind (.given _) fun _ => .pure _

theorem kind_of_parse {e : Failure} (h : ImageReference.parse image = .error e) :
    e.kind ∈ earlyKinds := by
  rcases Refusing.parse image e h with h | h
  · rw [h]; decide
  · rw [h]; decide

/-- An image that is not known is not found. -/
theorem Run.kind_of_imageMetadata {ns : Option String} {tag : String} {e : Failure}
    (h : Run (ofCluster (.question (.imageMetadata ns tag))).run w t (some (.error e)) w') :
    e.kind = .notFound := by
  obtain ⟨r, hrun, hres⟩ := h.map_cases
  rcases hrun.question_cases with ⟨rfl, -⟩ | ⟨_, _, w₁, _, reply, -, -, -, -, hanswer, -, hr⟩
  · cases hres
  · obtain ⟨a, ha, hmap⟩ := Option.map_eq_some_iff.mp hres.symm
    cases hr a ha
    obtain ⟨hlook, -⟩ := Prod.mk.inj (Option.some.inj hanswer)
    replace hlook : w₁.cluster.imageMetadata (ns.getD w₁.cluster.ns) tag = reply := hlook
    unfold Cluster.imageMetadata at hlook
    split at hlook
    · subst hlook
      cases hmap
    · subst hlook
      cases hmap
      rfl

theorem Run.kind_of_resolve {e : Failure}
    (h : Run (Plan.resolve mode image).run w t (some (.error e)) w') : e.kind ∈ earlyKinds := by
  cases mode with
  | build =>
    rcases h.error_cases with hparse | ⟨reference, _, _, _, -, -, hdone⟩
    · exact kind_of_parse (hparse.of_done.2 _ rfl).symm
    · cases hdone.of_done.2 _ rfl
  | dev =>
    rcases h.error_cases with hresolve | ⟨builder, _, _, _, -, -, hdone⟩
    · rcases hresolve.error_cases with hparse | ⟨reference, _, _, _, -, -, hlook⟩
      · exact kind_of_parse (hparse.of_done.2 _ rfl).symm
      · rcases hlook.error_cases with hlook | ⟨_, _, _, _, -, -, hdone⟩
        · obtain ⟨e', rfl, hrequest⟩ := hlook.within_error
          show e'.kind ∈ earlyKinds
          rw [hrequest.kind_of_imageMetadata]
          decide
        · cases hdone.of_done.2 _ rfl
    · cases hdone.of_done.2 _ rfl

/-- The name and marks are those of the workload that was read first. -/
theorem Run.liveMeta_ok {sourceType : String} {component : ComponentMeta} (hw : w.Sound)
    (h : Run (liveMeta name sourceType).run w t (some (.ok component)) w') :
    ∃ d, firstRead t = some d ∧ Resource.nameOf d = name ∧
      component = (ComponentMeta.ofWorkload d).withSourceType sourceType := by
  obtain ⟨d, t₁, t₂, w₁, rfl, hread, hdone⟩ := h.ok_cases
  cases hdone.of_done.2 _ rfl
  rcases hread.within_ok.readWorkload_cases with
    ⟨hnone, -⟩ | ⟨t₃, t₄, w₂, rfl, h₃, -, hturns, -, hres⟩
  · cases hnone
  · have hok := hres _ rfl
    cases hget : w₂.cluster.workloads.get name with
    | error fault => rw [hget] at hok; cases hok
    | ok d' =>
      rw [hget] at hok
      cases hok
      refine ⟨d, ?_, ?_, rfl⟩
      · rw [List.append_assoc, firstRead_append, h₃.firstRead_eq_none]
        rfl
      · exact (hturns.sound hw).workloads.filed _ _ (Store.get_eq_ok_iff.mp hget)

theorem Run.mode_of_resolve {plan : Plan}
    (h : Run (Plan.resolve mode image).run w t (some (.ok plan)) w') : plan.mode = mode := by
  cases mode with
  | dev =>
    obtain ⟨builder, _, _, _, -, -, hdone⟩ := h.ok_cases
    cases hdone.of_done.2 _ rfl
    rfl
  | build =>
    obtain ⟨reference, _, _, _, -, -, hdone⟩ := h.ok_cases
    cases hdone.of_done.2 _ rfl
    rfl

theorem Run.kind_of_liveMeta {sourceType : String} {e : Failure}
    (h : Run (liveMeta name sourceType).run w t (some (.error e)) w') : e.kind ∈ earlyKinds := by
  rcases h.error_cases with hread | ⟨d, _, _, _, -, -, hdone⟩
  · obtain ⟨e', rfl, hrequest⟩ := hread.within_error
    show e'.kind ∈ earlyKinds
    rw [hrequest.kind_of_readWorkload]
    decide
  · cases hdone.of_done.2 _ rfl

theorem asks_liveMeta {sourceType : String} : (liveMeta name sourceType).Asks Request.IsLook :=
  .bind (.within (asks_readWorkload trivial) _) fun _ => .pure _

/-- **Before the patch**, a switch only looks. It fails early, or it goes on with the name and marks
of the workload that it read first. -/
theorem Run.toMode_cases {res : Option (Except Failure DeploymentConfig)} (hw : w.Sound)
    (h : Run (toMode s mode name image).run w t res w') :
    (commits t = [] ∧ LeavesClaims t ∧ ∀ r ∈ res, ∃ e, r = .error e ∧ e.kind ∈ earlyKinds) ∨
    ∃ plan d t₁ t₂ w₁, t = t₁ ++ t₂ ∧ commits t₁ = [] ∧ LeavesClaims t₁ ∧
      plan.mode = mode ∧ firstRead t = some d ∧ Resource.nameOf d = name ∧ w₁.Sound ∧
      Run (switchBy s ((ComponentMeta.ofWorkload d).withSourceType mode.sourceType) plan).run
        w₁ t₂ res w' := by
  have himage : (Plan.resolve mode image).Asks Request.IsLook :=
    Program.Asks.mono Request.IsImageLook.isLook asks_resolve
  rw [toMode_eq] at h
  rcases h.operation_cases with ⟨rfl, hrun⟩ | ⟨e, rfl, hrun⟩ | ⟨plan, t₁, t₂, w₁, rfl, hrun, hrest⟩
  · obtain ⟨hnone, hclaims⟩ := quiet_of_looks (hrun.forall_asked himage)
    exact .inl ⟨hnone, hclaims, fun _ hr => nomatch hr⟩
  · obtain ⟨hnone, hclaims⟩ := quiet_of_looks (hrun.forall_asked himage)
    refine .inl ⟨hnone, hclaims, ?_⟩
    rintro r ⟨⟩
    exact ⟨e, rfl, hrun.kind_of_resolve⟩
  obtain ⟨hnone, hclaims⟩ := quiet_of_looks (hrun.forall_asked himage)
  have hw₁ : w₁.Sound := hrun.turns.sound hw
  rcases hrest.operation_cases with
    ⟨rfl, hmeta⟩ | ⟨e, rfl, hmeta⟩ | ⟨component, t₃, t₄, w₂, rfl, hmeta, hswitch⟩
  · obtain ⟨hnone', hclaims'⟩ := quiet_of_looks (hmeta.forall_asked asks_liveMeta)
    exact .inl ⟨(commits_append_of_nil hnone).trans hnone', hclaims.append hclaims',
      fun _ hr => nomatch hr⟩
  · obtain ⟨hnone', hclaims'⟩ := quiet_of_looks (hmeta.forall_asked asks_liveMeta)
    refine .inl ⟨(commits_append_of_nil hnone).trans hnone', hclaims.append hclaims', ?_⟩
    rintro r ⟨⟩
    exact ⟨e, rfl, hmeta.kind_of_liveMeta⟩
  · obtain ⟨hnone', hclaims'⟩ := quiet_of_looks (hmeta.forall_asked asks_liveMeta)
    obtain ⟨d, hfirst, hname, rfl⟩ := hmeta.liveMeta_ok hw₁
    refine .inr ⟨plan, d, t₁ ++ t₃, t₄, w₂, (List.append_assoc _ _ _).symm,
      (commits_append_of_nil hnone).trans hnone', hclaims.append hclaims', hrun.mode_of_resolve, ?_,
      hname, hmeta.turns.sound hw₁, hswitch⟩
    rw [firstRead_append, firstRead_append,
      firstRead_eq_none (hrun.forall_asked asks_resolve), hfirst]
    rfl

end

/-! ## The claim step -/

section

variable {w w' : World} {t : List (Event Unit)} {s : Settings} {component : String} {plan : Plan}

/-- The claim step writes no workload. -/
theorem asks_settle : (plan.settle s component).Asks fun r => ¬ r.IsUpdate := by
  cases plan with
  | toDev builder =>
    refine .bind (.ask id) fun reply => ?_
    cases reply with
    | ok c => exact .pure _
    | error fault =>
      show Program.Asks _ (if fault.isConflict then _ else _ : Operation Unit).run
      split
      · exact Asks.pure _
      · exact Asks.throw _
  | toBuild image => exact Program.Asks.bind asks_clearClaim fun _ => trivial

/-- The claim step fails as the later step of a switch. -/
theorem fails_settle : (plan.settle s component).Fails fun e =>
    ∃ cause, e = .partialCompletion (plan.mode.completed component) (plan.mode.claimStage component)
      cause := by
  cases plan with
  | toDev builder =>
    refine (Fails.ask _).bind fun reply => ?_
    cases reply with
    | ok c => exact .pure _
    | error fault =>
      show Program.Ends _ (if fault.isConflict then _ else _ : Operation Unit).run
      split
      · exact Fails.pure _
      · exact Fails.throw ⟨_, rfl⟩
  | toBuild image =>
    refine Program.Ends.of_forall fun r => ?_
    cases r with
    | ok => exact fun _ he => nomatch he
    | error cause =>
      rintro e ⟨⟩
      exact ⟨cause, rfl⟩

/-- The claim step of a switch to build mode that succeeded has cleared the claim. -/
theorem Run.clearClaim_of_settle {reference : ImageReference}
    (h : Run ((Plan.toBuild reference).settle s component).run w t (some (.ok ())) w') :
    Run (clearClaim s (appDataClaim component)).run w t (some (.ok ())) w' := by
  obtain ⟨r, hrun, hres⟩ := h.map_cases
  obtain ⟨b, rfl, hb⟩ := Option.map_eq_some_iff.mp hres.symm
  cases b with
  | ok => exact hrun
  | error e => cases hb

/-- After the claim step the claim was there, or gone, at some moment. -/
theorem Run.claim_of_settle (hw : w.Sound)
    (h : Run (plan.settle s component).run w t (some (.ok ())) w') :
    ∃ e ∈ t, e.after.cluster.claims.contains (appDataClaim component) = plan.mode.hasClaim := by
  cases plan with
  | toDev builder => exact h.claim_of_ensureClaim
  | toBuild reference => exact h.clearClaim_of_settle.gone_of_clearClaim hw

end

/-! ## The whole switch -/

/-- There was one commit. Until then claims were left alone, and `later` is what happened after the
patch that it was made in. -/
structure CommitsOnce (t : List (Event Unit)) (c : Commit) (later : List (Event Unit)) : Prop where
  split : ∃ earlier, t = earlier ++ later ∧ commits earlier = [c] ∧ LeavesClaims earlier
  later : commits later = []

theorem CommitsOnce.commits_eq {t later : List (Event Unit)} {c : Commit}
    (h : CommitsOnce t c later) : commits t = [c] := by
  obtain ⟨earlier, rfl, hone, -⟩ := h.split
  rw [commits_append, hone, h.later]
  rfl

theorem CommitsOnce.prepend {t₁ t₂ later : List (Event Unit)} {c : Commit}
    (hnone : commits t₁ = []) (hclaims : LeavesClaims t₁) (h : CommitsOnce t₂ c later) :
    CommitsOnce (t₁ ++ t₂) c later := by
  obtain ⟨earlier, rfl, hone, hearlier⟩ := h.split
  exact ⟨⟨t₁ ++ earlier, (List.append_assoc _ _ _).symm, (commits_append_of_nil hnone).trans hone,
    hclaims.append hearlier⟩, h.later⟩

/-- How a switch can end that has committed, with what happened after the patch. -/
inductive SwitchEnd (mode : Mode) (component : String) (c : Commit) (later : List (Event Unit)) :
    Except Failure DeploymentConfig → Prop
  /-- The update was not seen, so nothing was done after the patch. -/
  | unseen {e : Failure} (hlater : later = []) (hkind : e.kind ∈ waitKinds) :
    SwitchEnd mode component c later (.error e)
  /-- The claim step failed or was not confirmed. -/
  | unsettled (cause : Failure) :
    SwitchEnd mode component c later
      (.error (.partialCompletion (mode.completed component) (mode.claimStage component) cause))
  /-- The claim was as the mode wants it at some moment. -/
  | settled (hclaim : ∃ e ∈ later,
      e.after.cluster.claims.contains (appDataClaim component) = mode.hasClaim) :
    SwitchEnd mode component c later (.ok c.stored)

/-- What a run of a switch did: it failed early and did nothing, or it committed once, and left
claims alone until then. -/
inductive Switched (s : Settings) (component : ComponentMeta) (plan : Plan) (t : List (Event Unit))
    (res : Option (Except Failure DeploymentConfig)) : Prop
  | untouched (h : commits t = []) (hclaims : LeavesClaims t)
      (hres : ∀ r ∈ res, ∃ e, r = .error e ∧ e.kind ∈ earlyKinds)
  | committed (c : Commit) (current : DeploymentConfig) (sourceType : String)
      (later : List (Event Unit)) (hone : CommitsOnce t c later)
      (happ : c.Applies component.name (plan.edit s component) current sourceType)
      (hres : ∀ r ∈ res, SwitchEnd plan.mode component.name c later r)

section

variable {w w' : World} {t : List (Event Unit)} {s : Settings} {component : ComponentMeta}
  {plan : Plan}

/-- The edit of a switch fails only by refusing. -/
theorem Plan.refusing_edit (d : DeploymentConfig) : Refusing (plan.edit s component d) := by
  cases plan with
  | toDev builder =>
    refine Refusing.patchEdit (Refusing.wantedInDevMode s component builder) ?_ d
    rintro k ⟨⟩
  | toBuild image =>
    refine Refusing.patchEdit (Refusing.wantedInBuildMode component image) ?_ d
    rintro k ⟨⟩
    exact Refusing.stripDevMode

/-- How the claim step ends is how the switch ends. -/
theorem Run.switchEnd {c : Commit} {res : Option (Except Failure DeploymentConfig)} (hw : w.Sound)
    (h : Run (plan.settle s component.name >>= fun _ => pure c.stored).run w t res w') :
    ∀ r ∈ res, SwitchEnd plan.mode component.name c t r := by
  intro r hr
  obtain rfl : res = some r := hr
  cases r with
  | error e =>
    rcases h.error_cases with hsettle | ⟨_, _, _, _, -, -, hdone⟩
    · obtain ⟨cause, rfl⟩ := hsettle.ends fails_settle _ rfl e rfl
      exact .unsettled cause
    · cases hdone.of_done.2 _ rfl
  | ok d =>
    obtain ⟨_, t₁, t₂, w₁, rfl, hsettle, hdone⟩ := h.ok_cases
    cases hdone.of_done.2 _ rfl
    obtain ⟨e, he, hclaim⟩ := hsettle.claim_of_settle hw
    exact .settled ⟨e, List.mem_append_left _ he, hclaim⟩

/-- **What a switch does**: it commits at most once, and how it ends tells how far it came. -/
theorem Run.switched {res : Option (Except Failure DeploymentConfig)} (hw : w.Sound)
    (h : Run (switchBy s component plan).run w t res w') : Switched s component plan t res := by
  rcases h.operation_cases with
    ⟨rfl, hpatch⟩ | ⟨e, rfl, hpatch⟩ | ⟨d, t₁, t₂, w₁, rfl, hpatch, hrest⟩
  · have hclaims := hpatch.forall_asked asks_patchWorkloadWith
    cases hpatch.patched Plan.refusing_edit hw with
    | untouched h _ => exact .untouched h hclaims fun _ hr => nomatch hr
    | committed c current sourceType h happ _ =>
      exact .committed c current sourceType [] ⟨⟨t, (List.append_nil t).symm, h, hclaims⟩, rfl⟩ happ
        fun _ hr => nomatch hr
  · have hclaims := hpatch.forall_asked asks_patchWorkloadWith
    cases hpatch.patched Plan.refusing_edit hw with
    | untouched h hres => exact .untouched h hclaims hres
    | committed c current sourceType h happ hres =>
      refine .committed c current sourceType [] ⟨⟨t, (List.append_nil t).symm, h, hclaims⟩, rfl⟩
        happ ?_
      rintro r ⟨⟩
      rcases hres _ rfl with hok | ⟨e', he, hkind⟩
      · cases hok
      · cases he
        exact .unseen rfl hkind
  · have hclaims := hpatch.forall_asked asks_patchWorkloadWith
    cases hpatch.patched Plan.refusing_edit hw with
    | untouched _ hres =>
      obtain ⟨_, he, -⟩ := hres _ rfl
      cases he
    | committed c current sourceType h happ hres =>
      rcases hres _ rfl with hok | ⟨e', he, -⟩
      · cases hok
        have hquiet : (plan.settle s component.name >>= fun _ => pure c.stored).Asks
            fun r => ¬ r.IsUpdate := .bind asks_settle fun _ => .pure _
        exact .committed c current sourceType t₂
          ⟨⟨t₁, rfl, h, hclaims⟩, commits_eq_nil (hrest.forall_asked hquiet)⟩ happ
          (hrest.switchEnd (hpatch.turns.sound hw))
      · cases he

end

end InnerLoop
