import InnerLoop.Proofs.Session

/-!
# Volumes that are bound to a claim

A claim is to be bound by one volume of a workload at most. Attaching a claim checks that, but the
switch to dev mode adds a volume for the claim of the application without looking whether there is
one already, and the switch to build mode keeps volumes by their names and deletes that claim by its
own. So what the user has bound to the claim of the application decides both.

- `DeploymentConfig.OneVolumePerClaim`, `DeploymentConfig.UserBindsAppClaim`: the two conditions.
- `Task.Makes.oneVolumePerClaim_toDev_iff`, `Task.Makes.oneVolumePerClaim`: what one task does to
  the bindings, and `Story.endsUnique_iff`: what all of them do.
- `bindings_stay_unique_iff`: **throughout a session every claim keeps one volume exactly if no
  switch to dev mode meets a binding of the user's**.
- `Run.deletes_of_toBuildMode`: a switch to build mode that succeeds has deleted a claim by name.
- `toBuildMode_spares_claim_iff`: **a switch to build mode deletes a claim that is still in use
  exactly if it meets one**.
-/

namespace InnerLoop

open DeploymentConfig Operation

namespace DeploymentConfig

/-- No claim has two volumes bound to it. -/
def OneVolumePerClaim (d : DeploymentConfig) : Prop := ∀ claim, (d.volumesOf claim).length ≤ 1

/-- A volume that is not one of dev mode's is bound to the claim of the application. Of volumes of
one name the first counts, as the others are not carried over. -/
def UserBindsAppClaim (d : DeploymentConfig) (name : String) : Prop :=
  ∃ v ∈ d.volumes, d.volume? v.name = some v ∧ v.name ∉ reservedVolumes name ∧
    bindsClaim (appDataClaim name) v = true

instance (d : DeploymentConfig) (name : String) : Decidable (d.UserBindsAppClaim name) :=
  inferInstanceAs (Decidable (∃ v ∈ d.volumes, _ ∧ _ ∧ _))

theorem length_volumesOf (d : DeploymentConfig) (claim : String) :
    (d.volumesOf claim).length = d.volumes.countP (bindsClaim claim) := by
  unfold volumesOf
  rw [List.length_map, List.countP_eq_length_filter]

theorem volumesOf_eq_nil_iff {d : DeploymentConfig} {claim : String} :
    d.volumesOf claim = [] ↔ d.volumes.countP (bindsClaim claim) = 0 := by
  rw [← length_volumesOf, List.length_eq_zero_iff]

end DeploymentConfig

/-! ## What one task does -/

/-- The first items of names are some of the items, in their order. -/
theorem firstNamed_sublist {α : Type} (nameOf : α → String) (seen : List String) (l : List α) :
    (firstNamed nameOf seen l).Sublist l := by
  induction l generalizing seen with
  | nil => exact .slnil
  | cons x r ih =>
    unfold firstNamed
    by_cases hx : nameOf x ∈ seen
    · rw [if_pos hx]
      exact .cons _ (ih seen)
    · rw [if_neg hx]
      exact .cons_cons _ (ih _)

/-- What a switch carries over binds the claim of the application exactly if the user does. -/
theorem countP_carried_eq_zero_iff {d : DeploymentConfig} {name : String} :
    (firstNamed Volume.name (reservedVolumes name) d.volumes).countP
        (bindsClaim (appDataClaim name)) = 0 ↔ ¬ d.UserBindsAppClaim name := by
  rw [List.countP_eq_zero]
  constructor
  · rintro h ⟨v, -, hfirst, hname, hbinds⟩
    exact h v (mem_firstNamed_iff.mpr ⟨hname, hfirst⟩) hbinds
  · intro h v hv hbinds
    obtain ⟨hname, hfirst⟩ := mem_firstNamed_iff.mp hv
    exact h ⟨v, (mem_of_mem_firstNamed hv).1, hfirst, hname, hbinds⟩

/-- Dev mode binds the claim of the application, and no other. -/
theorem countP_devModeVolumes (name claim : String) :
    (devModeVolumes name).countP (bindsClaim claim) =
      if claim = appDataClaim name then 1 else 0 := by
  unfold devModeVolumes bindsClaim
  by_cases h : claim = appDataClaim name
  · simp [h]
  · simp [h, Ne.symm h]

namespace Task.Makes

variable {name image : String} {task : Task} {d d' : DeploymentConfig}

/-- A switch to dev mode binds the claim of the application, whatever else is bound to it. -/
theorem oneVolumePerClaim_toDev_iff (h : Makes name (.switch .dev image) d d')
    (hd : d.OneVolumePerClaim) : d'.OneVolumePerClaim ↔ ¬ d.UserBindsAppClaim name := by
  obtain ⟨_, _, _, _, -, hpods, -⟩ := h.pods_toDev
  have hcount : ∀ claim, (d'.volumesOf claim).length =
      (if claim = appDataClaim name then 1 else 0) +
        (firstNamed Volume.name (reservedVolumes name) d.volumes).countP (bindsClaim claim) := by
    intro claim
    rw [length_volumesOf, hpods.volumes_eq, List.countP_append, countP_devModeVolumes]
  rw [← countP_carried_eq_zero_iff]
  constructor
  · -- Dev mode counts one for the claim of the application, which leaves none for the user.
    intro hone
    have happ := hone (appDataClaim name)
    rw [hcount, if_pos rfl] at happ
    omega
  · -- Any other claim counts what is carried over, which is no more than there was.
    intro hnone claim
    rw [hcount]
    split
    case isTrue hclaim =>
      subst hclaim
      omega
    case isFalse =>
      have hcarried := (firstNamed_sublist Volume.name (reservedVolumes name) d.volumes).countP_le
        (p := bindsClaim claim)
      have hlive := hd claim
      rw [length_volumesOf] at hlive
      omega

/-- Any other task adds at most the first binding of a claim. -/
theorem oneVolumePerClaim (h : task.Makes name d d') (hname : d.name = name)
    (htask : ∀ image, task ≠ .switch .dev image) (hd : d.OneVolumePerClaim) :
    d'.OneVolumePerClaim := by
  have hkept : d'.volumes.Sublist d.volumes → d'.OneVolumePerClaim := by
    intro hsub claim
    have hlive := hd claim
    rw [length_volumesOf] at hlive ⊢
    exact Nat.le_trans hsub.countP_le hlive
  have hmakes := h
  cases h with
  | toDev => exact absurd rfl (htask _)
  | toBuild =>
    obtain ⟨-, _, _, -, hpods, -⟩ := hmakes.pods_toBuild hname
    exact hkept (hpods.volumes_eq ▸ firstNamed_sublist _ _ _)
  | @attach claim path _ _ n h =>
    obtain ⟨hfree, _, _, -, hpods, -⟩ := podsOver_attachClaim h
    intro claim'
    rw [length_volumesOf, hpods.volumes_eq, List.countP_append, ← length_volumesOf]
    by_cases hclaim : claim' = claim
    · rw [hclaim, hfree, List.length_nil, Nat.zero_add]
      exact List.countP_le_length
    · have hnew : [claimVolume claim (newVolumeName claim n)].countP (bindsClaim claim') = 0 := by
        unfold bindsClaim claimVolume
        simp [Ne.symm hclaim]
      rw [hnew]
      exact hd claim'
  | detach h =>
    obtain ⟨-, _, _, -, -, hpods, -⟩ := podsOver_detachClaim h
    exact hkept (hpods.volumes_eq ▸ List.filter_sublist)
  | setVars h =>
    obtain ⟨_, _, -, hpods, -⟩ := podsOver_putEnvVars h
    exact hkept (hpods.volumes_eq ▸ List.Sublist.refl _)
  | annotate => exact hd

end Task.Makes

/-! ## What a session does -/

/-- A switch to dev mode met a volume of the user's that is bound to the claim of the
application. -/
def Deed.Clashes (x : Deed) (name : String) : Prop :=
  match x.task, x.before with
  | .switch .dev _, some d => d.UserBindsAppClaim name
  | _, _ => False

instance (x : Deed) (name : String) : Decidable (x.Clashes name) := by
  unfold Deed.Clashes
  split <;> infer_instance

/-- In the workload after a task no claim has two volumes bound to it. -/
def Deed.EndsUnique (x : Deed) : Prop := ∃ d, x.after = some d ∧ d.OneVolumePerClaim

section

variable {name : String} {d d' : DeploymentConfig} {log : List Deed}

/-- **One task** keeps the bindings unique exactly if it does not clash with one of the user's. -/
theorem Task.Makes.endsUnique_iff {task : Task} {v : String} (h : task.Makes name d d')
    (hname : d.name = name) (hd : d.OneVolumePerClaim) :
    Deed.EndsUnique ⟨task, some d, some (Resource.withVersion v d')⟩ ↔
      ¬ Deed.Clashes ⟨task, some d, some (Resource.withVersion v d')⟩ name := by
  have hends : Deed.EndsUnique ⟨task, some d, some (Resource.withVersion v d')⟩ ↔
      d'.OneVolumePerClaim := by
    constructor
    · rintro ⟨_, ⟨⟩, hone⟩
      exact hone
    · exact fun hone => ⟨_, rfl, hone⟩
  rw [hends]
  by_cases htask : ∃ image, task = .switch .dev image
  · obtain ⟨image, rfl⟩ := htask
    exact h.oneVolumePerClaim_toDev_iff hd
  · refine iff_of_true (h.oneVolumePerClaim hname (fun image heq => htask ⟨image, heq⟩) hd) ?_
    unfold Deed.Clashes
    split
    · rename_i heq _
      exact fun _ => htask ⟨_, heq⟩
    · exact id

/-- **A whole session**: the induction is on the story of the workload, and carries the uniqueness
of its bindings along as long as nothing clashes. -/
theorem Story.endsUnique_iff (h : Story name d log d') (hd : d.OneVolumePerClaim) :
    (∀ x ∈ log, x.EndsUnique) ↔ ∀ x ∈ log, ¬ x.Clashes name := by
  induction h with
  | nil => exact iff_of_true (fun _ hx => nomatch hx) fun _ hx => nomatch hx
  | @cons _ _ _ _ v _ hname hmakes _ ih =>
    have hfirst := hmakes.endsUnique_iff (v := v) hname hd
    rw [List.forall_mem_cons, List.forall_mem_cons, hfirst]
    refine and_congr_right fun hclash => ih ?_
    obtain ⟨_, ⟨⟩, hone⟩ := hfirst.mpr hclash
    exact hone

/-- Where nothing clashed the bindings are unique in the end. -/
theorem Story.oneVolumePerClaim (h : Story name d log d') (hd : d.OneVolumePerClaim)
    (hclash : ∀ x ∈ log, ¬ x.Clashes name) : d'.OneVolumePerClaim := by
  induction h with
  | nil => exact hd
  | cons hname hmakes _ ih =>
    obtain ⟨hfirst, hrest⟩ := List.forall_mem_cons.mp hclash
    obtain ⟨_, ⟨⟩, hone⟩ := (hmakes.endsUnique_iff hname hd).mpr hfirst
    exact ih hone hrest

end

/-- What is wrong with the primary container has nothing to do with volumes. -/
theorem primary_ne_severalVolumes (d : DeploymentConfig) (name owner claim : String)
    (volumes : List String) :
    d.primary name ≠ .error (.corrupt owner (.severalVolumes claim volumes)) := by
  intro h
  unfold primary at h
  split at h
  · cases h
  · cases h
  · cases h

/-- Detaching a claim that one volume is bound to at most does not find several. -/
theorem detachClaim_ne_severalVolumes {d : DeploymentConfig} {name : String}
    (hd : d.OneVolumePerClaim) (claim claim' : String) (volumes : List String) :
    d.detachClaim name claim ≠ .error (.corrupt name (.severalVolumes claim' volumes)) := by
  intro h
  have hone := hd claim
  unfold detachClaim at h
  split at h
  · cases h
  · rcases bind_eq_error_iff.mp h with hmounts | ⟨mounts, -, h⟩
    · rcases bind_eq_error_iff.mp hmounts with hprimary | ⟨_, -, hpure⟩
      · exact primary_ne_severalVolumes _ _ _ _ _ hprimary
      · cases hpure
    · dsimp only at h
      split at h
      · cases h
      · rcases bind_eq_error_iff.mp h with hmodify | ⟨_, -, hpure⟩
        · rcases bind_eq_error_iff.mp hmodify with hprimary | ⟨_, -, hpure⟩
          · exact primary_ne_severalVolumes _ _ _ _ _ hprimary
          · cases hpure
        · cases hpure
  · rename_i hnone hsingle
    cases hl : d.volumesOf claim with
    | nil => exact hnone hl
    | cons v r =>
      cases r with
      | nil => exact hsingle v hl
      | cons v' r' =>
        rw [hl] at hone
        exact absurd hone (by simp)

/-- **Exactly when bindings stay unique**: throughout a session no claim has two volumes bound to it
if and only if no switch to dev mode meets a volume of the user's that is bound to the claim of the
application. Then taking a claim off the workload does not find two of them either. -/
theorem bindings_stay_unique_iff {w w' : World} {name : String} {d : DeploymentConfig}
    {log : List Deed} (hw : w.Reachable) (hd : w.stored name = some d) (hname : d.name = name)
    (hone : d.OneVolumePerClaim) (h : Session name w log w') :
    ((∀ x ∈ log, x.EndsUnique) ↔ ∀ x ∈ log, ¬ x.Clashes name) ∧
    ((∀ x ∈ log, ¬ x.Clashes name) →
      ∀ (s : Settings) (claim : String) (t : List (Event Unit)) (e : Failure) (w'' : World),
        Untouched name t → Run (removeClaim s claim name).run w' t (some (.error e)) w'' →
        ∀ claim' volumes,
          e ≠ .during (.detachClaim name) (.corrupt name (.severalVolumes claim' volumes))) := by
  obtain ⟨hw', d', hd', -, hstory⟩ := h.story hw.sound hd hname
  refine ⟨hstory.endsUnique_iff hone, ?_⟩
  intro hclash s claim t e w'' hu hrun claim' volumes he
  have hone' := hstory.oneVolumePerClaim hone hclash
  obtain ⟨e', rfl, hcause⟩ :=
    Run.changeWorkload_error (keepsIdentity_detachClaim name claim) hw' hd' hu hrun
  cases he
  rcases hcause with hmissing | hconflict | hdetach
  · cases hmissing
  · cases hconflict
  · exact detachClaim_ne_severalVolumes hone' claim claim' volumes hdetach

theorem stored_shopWorld :
    shopWorld.stored "web" = some (Resource.withVersion "1" shopWorkload) := rfl

theorem oneVolumePerClaim_shopWorkload :
    DeploymentConfig.OneVolumePerClaim (Resource.withVersion "1" shopWorkload) :=
  fun _ => Nat.zero_le 1

/-- The shop is switched to dev mode, and a claim for its orders is added and taken off again. -/
def ordersSession : Option (List Deed × World) :=
  playTasks "web" 12
    [.switch .dev "nodejs", .addClaim "orders" "/orders", .removeClaim "orders"] shopWorld

theorem ordersSession_free : ∃ r, ordersSession = some r ∧ r.1.length = 3 ∧
    ∀ x ∈ r.1, ¬ x.Clashes "web" := by
  have hfree : ordersSession.any (fun r => r.1.length = 3 ∧ ∀ x ∈ r.1, ¬ x.Clashes "web")
      = true := by decide +kernel
  obtain ⟨r, hr, hcheck⟩ := (Option.any_eq_true _ _).mp hfree
  exact ⟨r, hr, of_decide_eq_true hcheck⟩

theorem bindings_stay_unique_iff_orders :
    shopWorld.Reachable ∧ ∃ d log w', shopWorld.stored "web" = some d ∧ d.name = "web" ∧
      d.OneVolumePerClaim ∧ Session "web" shopWorld log w' ∧ log.length = 3 ∧
      (∀ x ∈ log, x.EndsUnique) ∧
      ∀ (s : Settings) (claim : String) (t : List (Event Unit)) (e : Failure) (w'' : World),
        Untouched "web" t → Run (removeClaim s claim "web").run w' t (some (.error e)) w'' →
        ∀ claim' volumes,
          e ≠ .during (.detachClaim "web") (.corrupt "web" (.severalVolumes claim' volumes)) := by
  obtain ⟨⟨log, w'⟩, hr, hlength, hclash⟩ := ordersSession_free
  have hsession : Session "web" shopWorld log w' := .of_playTasks hr
  obtain ⟨hiff, hremove⟩ := bindings_stay_unique_iff reachable_shopWorld stored_shopWorld rfl
    oneVolumePerClaim_shopWorkload hsession
  exact ⟨reachable_shopWorld, _, log, w', stored_shopWorld, rfl, oneVolumePerClaim_shopWorkload,
    hsession, hlength, hiff.mpr hclash, hremove hclash⟩

/-- **A second binding can be made**: not every session keeps the bindings of all claims unique. -/
theorem dev_mode_binds_twice :
    ¬ ∀ {name : String} {w w' : World} {d : DeploymentConfig} {log : List Deed}, w.Reachable →
      w.stored name = some d → d.name = name → d.OneVolumePerClaim → Session name w log w' →
      ∃ d', w'.stored name = some d' ∧ d'.OneVolumePerClaim := by
  intro h
  have htwice : (playTasks "web" 12 [.addClaim "web-s2idata" "/data", .switch .dev "nodejs"]
      shopWorld).any (fun r => (r.2.stored "web").any fun d =>
        (d.volumesOf "web-s2idata").length = 2) = true := by decide +kernel
  obtain ⟨⟨log, w'⟩, hr, hstored⟩ := (Option.any_eq_true _ _).mp htwice
  obtain ⟨d, hd, htwo⟩ := (Option.any_eq_true _ _).mp hstored
  obtain ⟨d', hd', hone⟩ := h reachable_shopWorld stored_shopWorld rfl
    oneVolumePerClaim_shopWorkload (.of_playTasks hr)
  cases hd.symm.trans hd'
  have hle := hone "web-s2idata"
  rw [of_decide_eq_true htwo] at hle
  exact absurd hle (by decide)

/-! ## What a switch to build mode deletes -/

/-- A claim was asked to be deleted. -/
def Deletes (claim : String) (t : List (Event Unit)) : Prop :=
  ∃ w reply w₁, Event.asked () (.deleteClaim claim) w reply w₁ ∈ t

/-- Clearing a claim asks for it to be deleted. -/
theorem Run.deletes_of_clearClaim {s : Settings} {claim : String} {w w' : World}
    {t : List (Event Unit)} (h : Run (clearClaim s claim).run w t (some (.ok ())) w') :
    Deletes claim t := by
  obtain ⟨reply, t₁, t₂, w₁, rfl, hask, -⟩ := h.ok_cases
  obtain ⟨t₃, t₄, w₂, w₃, rfl, -, -, -, -⟩ := hask.ask_cases
  exact ⟨w₂, reply, w₃, List.mem_append_left _ (List.mem_append_right _ List.mem_cons_self)⟩

section

variable {s : Settings} {name image : String} {w w' : World} {t : List (Event Unit)}
  {d current : DeploymentConfig}

/-- A switch to build mode that succeeds has deleted the claim of the application. -/
theorem Run.deletes_of_toBuildMode (hw : w.Sound) (hcurrent : w.stored name = some current)
    (hname : current.name = name) (hu : Untouched name t)
    (h : Run (toBuildMode s name image).run w t (some (.ok d)) w') :
    Deletes (appDataClaim name) t ∧
      ∃ e ∈ t, e.after.cluster.claims.contains (appDataClaim name) = false := by
  replace h : Run (toMode s .build name image).run w t (some (.ok d)) w' := h
  rcases h.toMode_opens hw hcurrent hu with
    ⟨_, hr, -⟩ | ⟨plan, t₁, t₂, w₁, rfl, hplan, -, hw₁, -, hswitch⟩
  · cases hr
  obtain ⟨_, t₃, t₄, w₂, rfl, hpatch, hrest⟩ := hswitch.ok_cases
  obtain ⟨_, t₅, t₆, w₃, rfl, hsettle, -⟩ := hrest.ok_cases
  have hmem : ∀ e ∈ t₅, e ∈ t₁ ++ (t₃ ++ (t₅ ++ t₆)) := fun e he =>
    List.mem_append_right _ (List.mem_append_right _ (List.mem_append_left _ he))
  cases plan with
  | toDev builder => cases hplan
  | toBuild reference =>
    have hcomponent : ((ComponentMeta.ofWorkload current).withSourceType
        Mode.build.sourceType).name = name := hname
    have hclear := hsettle.clearClaim_of_settle
    rw [hcomponent] at hclear
    obtain ⟨w₄, reply, w₅, he⟩ := hclear.deletes_of_clearClaim
    obtain ⟨e, he', hgone⟩ := hclear.gone_of_clearClaim (hpatch.turns.sound hw₁)
    exact ⟨⟨w₄, reply, w₅, hmem _ he⟩, e, hmem _ he', hgone⟩

/-- **Exactly when a deleted claim is still in use**: a switch to build mode that succeeds has
deleted the claim of the application. No volume of the workload that it wrote is bound to that claim
if and only if no volume of the user's was. -/
theorem toBuildMode_spares_claim_iff (hw : w.Reachable) (hcurrent : w.stored name = some current)
    (hname : current.name = name) (hu : Untouched name t)
    (h : Run (toBuildMode s name image).run w t (some (.ok d)) w') :
    w'.stored name = some d ∧ Deletes (appDataClaim name) t ∧
      (∃ e ∈ t, e.after.cluster.claims.contains (appDataClaim name) = false) ∧
      (d.volumesOf (appDataClaim name) = [] ↔ ¬ current.UserBindsAppClaim name) := by
  obtain ⟨hdeletes, hgone⟩ := h.deletes_of_toBuildMode hw.sound hcurrent hname hu
  replace h : Run (toMode s .build name image).run w t (some (.ok d)) w' := h
  obtain ⟨d', v, hmakes, rfl, hstored⟩ := h.stored_switch hw.sound hcurrent hname hu
  obtain ⟨-, _, _, -, hpods, -⟩ := hmakes.pods_toBuild hname
  refine ⟨hstored, hdeletes, hgone, ?_⟩
  have hbound : d'.volumesOf (appDataClaim name) = [] ↔ ¬ current.UserBindsAppClaim name := by
    rw [volumesOf_eq_nil_iff, hpods.volumes_eq, countP_carried_eq_zero_iff]
  exact hbound

end

/-- The primary container of the shop in dev mode, with a directory for uploads. -/
def uploadsContainer : Container where
  name := "web"
  volumeMounts := some
    [scratchMount, appDataMount "web", { name := "uploads", mountPath := "/uploads" }]

/-- The shop in dev mode, where the uploads lie on the claim of the application. -/
def borrowingWorkload : DeploymentConfig where
  metadata := { name := some "web" }
  spec := { template := some { spec := some {
    containers := [uploadsContainer]
    volumes := some (devModeVolumes "web" ++ [claimVolume "web-s2idata" "uploads"]) } } }

/-- The claim of the application. -/
def shopClaim : Claim where
  metadata := { name := some "web-s2idata" }

/-- A cluster with that shop and that claim. -/
def borrowingWorld : World :=
  World.modifyCluster (World.fileWorkload { cluster := { ns := "dev" } } borrowingWorkload)
    fun c => { c with claims := (c.claims.upsert shopClaim).2 }

theorem reachable_borrowingWorld : borrowingWorld.Reachable :=
  .turn (.turn (.start rfl rfl) (.fileWorkload _ borrowingWorkload))
    ⟨.inl rfl, .inr (.upsert shopClaim)⟩

theorem stored_borrowingWorld :
    borrowingWorld.stored "web" = some (Resource.withVersion "1" borrowingWorkload) := rfl

/-- The switch of that shop to build mode succeeds, and the uploads are still bound to the claim. -/
theorem exists_borrowingSwitch : ∃ t d w', Untouched "web" t ∧
    Run (toBuildMode {} "web" "web:2").run borrowingWorld t (some (.ok d)) w' ∧
    d.volumesOf (appDataClaim "web") = ["uploads"] := by
  have hends : ((toBuildMode {} "web" "web:2").run.play (undisturbed 16)
      borrowingWorld).2.1.any (fun r => r.toOption.any fun d =>
        d.volumesOf "web-s2idata" = ["uploads"]) = true := by decide +kernel
  obtain ⟨r, hr, hbound⟩ := (Option.any_eq_true _ _).mp hends
  have hrun := Run.play (undisturbed 16) (toBuildMode {} "web" "web:2").run borrowingWorld
  rw [hr] at hrun
  cases r with
  | error e => cases hbound
  | ok d => exact ⟨_, d, _, untouched_undisturbed _ _ _ _, hrun, of_decide_eq_true hbound⟩

theorem toBuildMode_spares_claim_iff_borrowing :
    borrowingWorld.Reachable ∧ ∃ current t d w', borrowingWorld.stored "web" = some current ∧
      current.name = "web" ∧ Untouched "web" t ∧
      Run (toBuildMode {} "web" "web:2").run borrowingWorld t (some (.ok d)) w' ∧
      w'.stored "web" = some d ∧ Deletes (appDataClaim "web") t ∧
      (∃ e ∈ t, e.after.cluster.claims.contains (appDataClaim "web") = false) ∧
      d.volumesOf (appDataClaim "web") ≠ [] ∧ current.UserBindsAppClaim "web" := by
  obtain ⟨t, d, w', hu, hrun, hbound⟩ := exists_borrowingSwitch
  obtain ⟨hstored, hdeletes, hgone, hiff⟩ := toBuildMode_spares_claim_iff reachable_borrowingWorld
    stored_borrowingWorld rfl hu hrun
  have hused : d.volumesOf (appDataClaim "web") ≠ [] := by
    rw [hbound]
    exact List.cons_ne_nil _ _
  exact ⟨reachable_borrowingWorld, _, t, d, w', stored_borrowingWorld, rfl, hu, hrun, hstored,
    hdeletes, hgone, hused, Decidable.not_not.mp (mt hiff.mpr hused)⟩

/-- **A claim in use can be deleted**: not every switch to build mode that succeeds leaves a
workload without a volume that is bound to the claim of the application. -/
theorem toBuildMode_deletes_claim_in_use :
    ¬ ∀ {s : Settings} {name image : String} {w w' : World} {t : List (Event Unit)}
      {current d : DeploymentConfig}, w.Reachable → w.stored name = some current →
      current.name = name → Untouched name t →
      Run (toBuildMode s name image).run w t (some (.ok d)) w' →
      d.volumesOf (appDataClaim name) = [] := by
  intro h
  obtain ⟨t, d, w', hu, hrun, hbound⟩ := exists_borrowingSwitch
  have hnone := h reachable_borrowingWorld stored_borrowingWorld rfl hu hrun
  rw [hbound] at hnone
  cases hnone

end InnerLoop
