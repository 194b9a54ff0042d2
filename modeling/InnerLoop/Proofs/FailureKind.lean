import InnerLoop.Proofs.Switch
import InnerLoop.Proofs.Play

/-!
# What the kind of a failure tells

A caller that sees a switch fail has to know what it left behind. The kind of the failure says it:
early kinds mean that nothing was done, kinds of waiting that the workload was patched and nothing
else, and a partial completion that only the claim step is missing. Nothing of this depends on what
others do in the meantime.

- `Ended`, `toMode_ended`: the four ways in which a switch ends.
- `toMode_kind_tells`: **the kind of a failure tells what was committed**.
-/

namespace InnerLoop

/-- A workload that has a name of its own is filed under it. -/
theorem name_of_nameOf {d : DeploymentConfig} {name : String} (h : Resource.nameOf d = name)
    (hown : d.metadata.name.isSome = true) : d.name = name := by
  obtain ⟨own, hown⟩ := Option.isSome_iff_exists.mp hown
  rw [← h]
  unfold DeploymentConfig.name Resource.nameOf
  show d.metadata.name.getD "" = (d.metadata.name.or d.metadata.generateName).getD ""
  rw [hown]
  rfl

theorem early_not_wait {k : FailureKind} (h : k ∈ earlyKinds) : k ∉ waitKinds := by
  revert h
  cases k <;> decide

variable {s : Settings} {mode : Mode} {name image : String} {w w' : World}
  {t : List (Event Unit)}

/-- The four ways in which a switch ends. -/
inductive Ended (mode : Mode) (name : String) (t : List (Event Unit)) :
    Except Failure DeploymentConfig → Prop
  /-- Nothing was done. -/
  | early {f : Failure} (hkind : f.kind ∈ earlyKinds) (hnone : commits t = [])
      (hclaims : LeavesClaims t) : Ended mode name t (.error f)
  /-- The workload was patched, which was not seen. -/
  | unseen {f : Failure} {c : Commit} (hkind : f.kind ∈ waitKinds) (hone : commits t = [c])
      (hclaims : LeavesClaims t) : Ended mode name t (.error f)
  /-- The workload was patched, and the claim step failed. -/
  | unsettled {read : DeploymentConfig} {c : Commit} {later : List (Event Unit)} (cause : Failure)
      (hread : firstRead t = some read) (hname : Resource.nameOf read = name)
      (hone : CommitsOnce t c later) : Ended mode name t
        (.error (.partialCompletion (mode.completed read.name) (mode.claimStage read.name) cause))
  /-- The workload was patched, and the claim was as the mode wants it. -/
  | settled {read : DeploymentConfig} {c : Commit} {later : List (Event Unit)}
      (hread : firstRead t = some read) (hname : Resource.nameOf read = name)
      (hone : CommitsOnce t c later) (hclaim : ∃ e ∈ later,
        e.after.cluster.claims.contains (appDataClaim read.name) = mode.hasClaim) :
      Ended mode name t (.ok c.stored)

theorem toMode_ended {r : Except Failure DeploymentConfig} (hw : w.Sound)
    (h : Run (toMode s mode name image).run w t (some r) w') : Ended mode name t r := by
  rcases h.toMode_cases hw with ⟨hnone, hclaims, hres⟩ |
    ⟨plan, read, t₁, t₂, w₁, rfl, hnone, hclaims, rfl, hread, hname, hw₁, hrun⟩
  · obtain ⟨f, rfl, hkind⟩ := hres _ rfl
    exact .early hkind hnone hclaims
  · cases hrun.switched hw₁ with
    | untouched hnone' hclaims' hres =>
      obtain ⟨f, rfl, hkind⟩ := hres _ rfl
      exact .early hkind ((commits_append_of_nil hnone).trans hnone') (hclaims.append hclaims')
    | committed c current sourceType later hone happ hres =>
      replace hone := hone.prepend hnone hclaims
      cases hres _ rfl with
      | unseen hlater hkind =>
        obtain ⟨earlier, ht, -, hearlier⟩ := hone.split
        rw [hlater, List.append_nil] at ht
        exact .unseen hkind hone.commits_eq (ht ▸ hearlier)
      | unsettled cause => exact .unsettled cause hread hname hone
      | settled hclaim => exact .settled hread hname hone hclaim

namespace Ended

variable {f : Failure} {d : DeploymentConfig}

theorem of_early (h : Ended mode name t (.error f)) (hf : f.kind ∈ earlyKinds) :
    commits t = [] ∧ LeavesClaims t := by
  cases h with
  | early _ hnone hclaims => exact ⟨hnone, hclaims⟩
  | unseen hkind _ _ => exact absurd hkind (early_not_wait hf)
  | unsettled cause _ _ _ =>
    replace hf : FailureKind.partialCompletion ∈ earlyKinds := hf
    exact absurd hf (by decide)

theorem of_wait (h : Ended mode name t (.error f)) (hf : f.kind ∈ waitKinds) :
    (∃ c, commits t = [c]) ∧ LeavesClaims t := by
  cases h with
  | early hkind _ _ => exact absurd hf (early_not_wait hkind)
  | unseen _ hone hclaims => exact ⟨⟨_, hone⟩, hclaims⟩
  | unsettled cause _ _ _ =>
    replace hf : FailureKind.partialCompletion ∈ waitKinds := hf
    exact absurd hf (by decide)

theorem of_partial (h : Ended mode name t (.error f)) (hf : f.kind = .partialCompletion) :
    ∃ n read c later cause, firstRead t = some read ∧ n = read.name ∧
      (read.metadata.name.isSome → n = name) ∧ CommitsOnce t c later ∧
      f = .partialCompletion (mode.completed n) (mode.claimStage n) cause := by
  cases h with
  | early hkind _ _ =>
    rw [hf] at hkind
    exact absurd hkind (by decide)
  | unseen hkind _ _ =>
    rw [hf] at hkind
    exact absurd hkind (by decide)
  | unsettled cause hread hname hone =>
    exact ⟨_, _, _, _, cause, hread, rfl, name_of_nameOf hname, hone, rfl⟩

theorem of_ok (h : Ended mode name t (.ok d)) :
    ∃ n read c later, firstRead t = some read ∧ n = read.name ∧
      (read.metadata.name.isSome → n = name) ∧ CommitsOnce t c later ∧ c.stored = d ∧
      ∃ e ∈ later, e.after.cluster.claims.contains (appDataClaim n) = mode.hasClaim := by
  cases h with
  | settled hread hname hone hclaim =>
    exact ⟨_, _, _, _, hread, rfl, name_of_nameOf hname, hone, rfl, hclaim⟩

theorem kind_mem (h : Ended mode name t (.error f)) :
    f.kind ∈ earlyKinds ++ waitKinds ++ [.partialCompletion] := by
  cases h with
  | early hkind _ _ => exact List.mem_append_left _ (List.mem_append_left _ hkind)
  | unseen hkind _ _ => exact List.mem_append_left _ (List.mem_append_right _ hkind)
  | unsettled cause _ _ _ => exact List.mem_append_right _ (List.mem_singleton.mpr rfl)

end Ended

/-- **The kind of a failure tells what was committed**, whatever others do and however the switch is
held up. `n` is the name in the metadata of the workload that the switch read first; it is the given
one if that workload has a name of its own. -/
theorem toMode_kind_tells {r : Except Failure DeploymentConfig} (hw : w.Reachable)
    (h : Run (toMode s mode name image).run w t (some r) w') :
    -- Nothing was done.
    (∀ f, r = .error f → f.kind ∈ [.notFound, .conflict, .corruption, .invalid] →
      commits t = [] ∧ LeavesClaims t) ∧
    -- The workload was patched, and claims were left alone.
    (∀ f, r = .error f → f.kind ∈ [.timeout, .watchTerminated, .conditionFailed] →
      (∃ c, commits t = [c]) ∧ LeavesClaims t) ∧
    -- The workload was patched, and then the claim step failed.
    (∀ f, r = .error f → f.kind = .partialCompletion →
      ∃ n read c later cause, firstRead t = some read ∧ n = read.name ∧
        (read.metadata.name.isSome → n = name) ∧ CommitsOnce t c later ∧
        f = .partialCompletion (mode.completed n) (mode.claimStage n) cause) ∧
    -- The workload was patched, and then the claim was as the mode wants it.
    (∀ d, r = .ok d →
      ∃ n read c later, firstRead t = some read ∧ n = read.name ∧
        (read.metadata.name.isSome → n = name) ∧ CommitsOnce t c later ∧ c.stored = d ∧
        ∃ e ∈ later, e.after.cluster.claims.contains (appDataClaim n) = mode.hasClaim) ∧
    -- There is no other kind.
    (∀ f, r = .error f → f.kind ∈ [.notFound, .conflict, .corruption, .invalid, .timeout,
      .watchTerminated, .conditionFailed, .partialCompletion]) := by
  have hended := toMode_ended hw.sound h
  refine ⟨?_, ?_, ?_, ?_, ?_⟩
  · rintro f rfl hf
    exact hended.of_early hf
  · rintro f rfl hf
    exact hended.of_wait hf
  · rintro f rfl hf
    exact hended.of_partial hf
  · rintro d rfl
    exact hended.of_ok
  · rintro f rfl
    exact hended.kind_mem

/-- The switch of the shop to dev mode, undisturbed, ends well. -/
theorem shop_switch_ends : ∃ d, ((toMode {} .dev "web" "nodejs").run.play (undisturbed 8)
    shopWorld).2.1 = some (.ok d) := by
  have hends : ((toMode {} .dev "web" "nodejs").run.play (undisturbed 8) shopWorld).2.1.any
      Except.toBool = true := by decide +kernel
  obtain ⟨r, hr, hok⟩ := (Option.any_eq_true _ _).mp hends
  cases r with
  | error e => cases hok
  | ok d => exact ⟨d, hr⟩

theorem toMode_kind_tells_shop :
    shopWorld.Reachable ∧ ∃ t d w', Run (toMode {} .dev "web" "nodejs").run shopWorld t
        (some (.ok d)) w' ∧
      ∃ n read c later, firstRead t = some read ∧ n = read.name ∧
        (read.metadata.name.isSome → n = "web") ∧ CommitsOnce t c later ∧ c.stored = d ∧
        ∃ e ∈ later, e.after.cluster.claims.contains (appDataClaim n) = true := by
  obtain ⟨d, hd⟩ := shop_switch_ends
  have hrun := Run.play (undisturbed 8) (toMode {} .dev "web" "nodejs").run shopWorld
  rw [hd] at hrun
  exact ⟨reachable_shopWorld, _, d, _, hrun,
    (toMode_kind_tells reachable_shopWorld hrun).2.2.2.1 d rfl⟩

end InnerLoop
