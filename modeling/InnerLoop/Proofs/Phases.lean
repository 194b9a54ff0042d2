import InnerLoop.Proofs.Session

/-!
# How much of dev mode a component shows

Dev mode is spread over six pieces: two volumes, their mounts and two init containers. A switch puts
all of them in place or takes all of them away, and other tasks leave them alone, but for one: the
claim of the application can be taken off a workload like any other, and its volume and mount go
while the rest of dev mode stays. So a workload is in one of three phases, and the tasks that were
done tell in which.

- `Phase`, `Phase.after`: the phases, and what each task does to them.
- `Shows`: a workload shows what there is of dev mode in a phase.
- `Task.Makes.shows`: one task; `Story.shows`: all of them.
- `session_mode_iff`: **a workload is wholly in one mode exactly if the claim of the application was
  not taken off it in dev mode**, and only in dev mode it can be switched back.
-/

namespace InnerLoop

open DeploymentConfig

/-! ## Phases -/

/-- How much a workload shows of dev mode: nothing, all of it, or what is left when the claim of the
application was taken off. -/
inductive Phase where
  | build | dev | torn
  deriving DecidableEq

namespace Phase

/-- The phase of the component of a name after a task that succeeded. -/
def after (name : String) (phase : Phase) : Task → Phase
  | .switch .dev _ => dev
  | .switch .build _ => build
  | .removeClaim claim => if phase = dev ∧ claim = appDataClaim name then torn else phase
  | .addClaim _ _ => phase
  | .addEnvVars _ => phase
  | .updateAnnotations _ => phase

theorem after_removeClaim (name claim : String) (phase : Phase) :
    phase.after name (.removeClaim claim) =
      if phase = dev ∧ claim = appDataClaim name then torn else phase := rfl

/-- The phase after tasks that succeeded one after another, from build mode on. -/
def ofTasks (name : String) (tasks : List Task) : Phase := tasks.foldl (after name) build

/-- The volumes of dev mode that are there in a phase. -/
def volumes (name : String) : Phase → List Volume
  | build => []
  | dev => devModeVolumes name
  | torn => [{ name := scratchVolume, emptyDir := some {} }]

/-- The init containers of dev mode that are there in a phase. -/
def inits : Phase → List String
  | build => []
  | dev => bootstrapContainers
  | torn => bootstrapContainers

end Phase

/-- A workload shows of dev mode what there is in a phase. -/
structure Shows (name : String) (d : DeploymentConfig) (phase : Phase) : Prop where
  volumes : d.volumes.filter (fun v => v.name ∈ reservedVolumes name) = phase.volumes name
  /-- What is there is mounted, and nothing else of dev mode. -/
  mounts : ∀ c ∈ d.named name,
    ((c.volumeMounts.getD []).filter fun m => m.name ∈ reservedVolumes name).map (·.name)
      = (phase.volumes name).map (·.name)
  inits : (d.initContainers.filter fun c => c.name ∈ bootstrapContainers).map (·.name) = phase.inits
  primary : phase ≠ .build → ∃ c, d.primary name = .ok c

/-! ## What phases say of modes -/

section

variable {name : String} {d : DeploymentConfig} {phase : Phase}

theorem filter_eq_nil_iff_forall {α : Type} {nameOf : α → String} {names : List String}
    {l : List α} : l.filter (fun x => nameOf x ∈ names) = [] ↔ ∀ x ∈ l, nameOf x ∉ names := by
  rw [List.filter_eq_nil_iff]
  exact forall₂_congr fun x _ => not_congr decide_eq_true_iff

/-- Build mode is the phase that shows nothing. -/
theorem shows_build_iff : Shows name d .build ↔ d.InBuildMode name := by
  constructor
  · intro h
    refine ⟨filter_eq_nil_iff_forall.mp h.volumes, fun c hc => ?_, ?_⟩
    · exact filter_eq_nil_iff_forall.mp (List.map_eq_nil_iff.mp (h.mounts c hc))
    · exact filter_eq_nil_iff_forall.mp (List.map_eq_nil_iff.mp h.inits)
  · rintro ⟨hvolumes, hmounts, hinits⟩
    refine ⟨filter_eq_nil_iff_forall.mpr hvolumes, fun c hc => ?_, ?_, fun h => absurd rfl h⟩
    · exact List.map_eq_nil_iff.mpr (filter_eq_nil_iff_forall.mpr (hmounts c hc))
    · exact List.map_eq_nil_iff.mpr (filter_eq_nil_iff_forall.mpr hinits)

/-- A volume of dev mode is looked up among those that are shown. -/
theorem Shows.volume?_eq (h : Shows name d phase) {n : String} (hn : n ∈ reservedVolumes name) :
    d.volume? n = (phase.volumes name).find? fun v => v.name = n := by
  rw [← h.volumes, List.find?_filter]
  unfold volume?
  refine congrArg (List.find? · d.volumes) (funext fun v => ?_)
  by_cases hv : v.name = n
  · simp [hv, hn]
  · simp [hv]

/-- The volume of the application is bound to its claim in dev mode only. -/
theorem Shows.claimOf_iff (h : Shows name d phase) :
    d.claimOf (appDataVolume name) = some (appDataClaim name) ↔ phase = .dev := by
  unfold claimOf
  rw [h.volume?_eq (List.mem_cons_of_mem _ List.mem_cons_self)]
  have hne := scratchVolume_ne_appDataVolume name
  cases phase with
  | build => exact iff_of_false (fun h => nomatch h) (fun h => nomatch h)
  | dev =>
    show Option.bind (List.find? _ (_ :: _ :: [])) _ = _ ↔ _
    rw [List.find?_cons_of_neg (by simpa using hne), List.find?_cons_of_pos (by simp)]
    exact iff_of_true rfl rfl
  | torn =>
    show Option.bind (List.find? _ (_ :: [])) _ = _ ↔ _
    rw [List.find?_cons_of_neg (by simpa using hne)]
    exact iff_of_false (fun h => nomatch h) (fun h => nomatch h)

/-- Dev mode is the phase that shows everything. -/
theorem Shows.inDevMode_iff (h : Shows name d phase) : d.InDevMode name ↔ phase = .dev := by
  refine ⟨fun hdev => h.claimOf_iff.mp hdev.2.1, ?_⟩
  rintro rfl
  obtain ⟨c, hc⟩ := h.primary (fun h => nomatch h)
  refine ⟨?_, h.claimOf_iff.mpr rfl, ⟨c, hc, fun v hv => ?_⟩, fun i hi => ?_⟩
  · unfold isEmptyDir
    rw [h.volume?_eq List.mem_cons_self]
    show Option.any _ (List.find? _ (_ :: _)) = true
    rw [List.find?_cons_of_pos (by simp)]
    rfl
  · have hmounted := h.mounts c (mem_named_of_primary hc)
    replace hv : v ∈ (Phase.dev.volumes name).map (·.name) := hv
    rw [← hmounted] at hv
    obtain ⟨m, hm, rfl⟩ := List.mem_map.mp hv
    exact ⟨m, (List.mem_filter.mp hm).1, rfl⟩
  · replace hi : i ∈ Phase.dev.inits := hi
    rw [← h.inits] at hi
    obtain ⟨c, hc, rfl⟩ := List.mem_map.mp hi
    exact ⟨c, (List.mem_filter.mp hc).1, rfl⟩

/-- Build mode is no other phase. -/
theorem Shows.inBuildMode_iff (h : Shows name d phase) : d.InBuildMode name ↔ phase = .build := by
  constructor
  · intro hbuild
    have hnone : phase.volumes name = [] :=
      h.volumes.symm.trans (shows_build_iff.mpr hbuild).volumes
    cases phase with
    | build => rfl
    | dev => cases hnone
    | torn => cases hnone
  · rintro rfl
    exact shows_build_iff.mp h

/-- A workload passes the check of a switch to build mode in dev mode only. -/
theorem Shows.checkDevMode_iff {live : Container} (h : Shows name d phase) (hname : d.name = name)
    (hlive : d.primary name = .ok live) : checkDevMode d = .ok () ↔ phase = .dev := by
  subst hname
  rw [checkDevMode_eq_ok_iff hlive]
  constructor
  · exact fun hcheck => h.claimOf_iff.mp hcheck.2.1
  · intro hdev
    obtain ⟨hscratch, hclaim, ⟨c, hc, hmounts⟩, -⟩ := h.inDevMode_iff.mpr hdev
    cases hlive.symm.trans hc
    refine ⟨hscratch, hclaim, fun v hv => ?_⟩
    obtain ⟨m, hm, rfl⟩ := hmounts v hv
    exact List.mem_map_of_mem hm

end

/-! ## What one task does -/

/-- The name of a new volume for a claim is none of dev mode's. -/
theorem newVolumeName_not_mem_reservedVolumes (claim : String) (n : Nat) (name : String) :
    newVolumeName claim n ∉ reservedVolumes name := by
  -- The three end differently, whatever the claim, the number and the component are.
  have hnew : (newVolumeName claim n).toList.reverse.take 7 = "-volume".toList.reverse := by
    unfold newVolumeName
    rw [String.toList_append, List.reverse_append]
    rfl
  have happData : (appDataVolume name).toList.reverse.take 7 = "s2idata".toList.reverse := by
    unfold appDataVolume
    rw [String.toList_append, List.reverse_append]
    rfl
  intro h
  rcases List.mem_cons.mp h with h | h
  · rw [h] at hnew
    exact absurd hnew (by decide)
  · rw [List.mem_singleton.mp h, happData] at hnew
    exact absurd hnew (by decide)

section

variable {name : String} {d d' : DeploymentConfig} {phase : Phase} {p : Container}
  {inits : List Container} {volumes : List Volume}

/-- What a workload shows that is seen over another one. -/
theorem PodsOver.shows (h : PodsOver name d' d p inits volumes)
    (hvolumes : volumes.filter (fun v => v.name ∈ reservedVolumes name) = phase.volumes name)
    (hmounts : ((p.volumeMounts.getD []).filter fun m => m.name ∈ reservedVolumes name).map (·.name)
      = (phase.volumes name).map (·.name))
    (hinits : (inits.filter fun c => c.name ∈ bootstrapContainers).map (·.name) = phase.inits) :
    Shows name d' phase where
  volumes := by rw [h.volumes_eq, hvolumes]
  mounts := by
    intro c hc
    rw [primary_eq_ok_iff.mp h.primary_eq] at hc
    rw [List.mem_singleton.mp hc, hmounts]
  inits := by rw [h.inits_eq, hinits]
  primary := fun _ => ⟨p, h.primary_eq⟩

/-- What is carried over holds none of the names that it is carried over to. -/
theorem filter_firstNamed {α : Type} (nameOf : α → String) (names : List String) (l : List α) :
    (firstNamed nameOf names l).filter (fun x => nameOf x ∈ names) = [] :=
  filter_eq_nil_iff_forall.mpr fun _ hx => (mem_of_mem_firstNamed hx).2

/-- What stands in front is all that bears those names. -/
theorem filter_front_firstNamed {α : Type} {nameOf : α → String} {names : List String}
    {front : List α} (hfront : front.map nameOf = names) (l : List α) :
    (front ++ firstNamed nameOf names l).filter (fun x => nameOf x ∈ names) = front := by
  rw [List.filter_append, filter_firstNamed, List.append_nil, List.filter_eq_self]
  intro x hx
  rw [← hfront]
  exact decide_eq_true (List.mem_map_of_mem hx)

/-- The user's init containers are none of dev mode's. -/
theorem filter_userInits (d : DeploymentConfig) :
    (userInits d).filter (fun c => c.name ∈ bootstrapContainers) = [] :=
  filter_eq_nil_iff_forall.mpr fun _ hc => of_decide_eq_true (List.mem_filter.mp hc).2

theorem Task.Makes.shows_toDev {image : String} (h : Task.Makes name (.switch .dev image) d d') :
    Shows name d' .dev := by
  obtain ⟨_, p, builder, supervisorImage, -, hpods, hmounts⟩ := h.pods_toDev
  have hvolumes : (devModeVolumes name).map Volume.name = reservedVolumes name := rfl
  have hfront : [scratchMount, appDataMount name].map VolumeMount.name = reservedVolumes name := rfl
  refine hpods.shows (filter_front_firstNamed hvolumes _) ?_ ?_
  · rw [hmounts, filter_front_firstNamed hfront]
    rfl
  · unfold devModeInits
    rw [List.filter_append, filter_userInits]
    rfl

theorem Task.Makes.shows_toBuild {image : String} (h : Task.Makes name (.switch .build image) d d')
    (hname : d.name = name) : Shows name d' .build := by
  obtain ⟨-, _, p, -, hpods, hmounts⟩ := h.pods_toBuild hname
  refine hpods.shows (filter_firstNamed _ _ _) ?_ ?_
  · rw [hmounts, filter_firstNamed]
    rfl
  · rw [filter_userInits]
    rfl

/-- An item of another name at the end is none of those names. -/
theorem filter_concat_of_not_mem {α : Type} (nameOf : α → String) {names : List String}
    (l : List α) {x : α} (hx : nameOf x ∉ names) :
    (l ++ [x]).filter (fun y => nameOf y ∈ names) = l.filter fun y => nameOf y ∈ names := by
  rw [List.filter_append, List.filter_cons_of_neg (by simpa using hx), List.filter_nil,
    List.append_nil]

/-- A claim that is added is mounted under a name that is none of dev mode's. -/
theorem Shows.attach {claim path : String} {n : Nat} (hs : Shows name d phase)
    (h : d.attachClaim name claim (newVolumeName claim n) path = .ok d') : Shows name d' phase := by
  obtain ⟨-, live, q, hlive, hpods, hmounts⟩ := podsOver_attachClaim h
  have hfree := newVolumeName_not_mem_reservedVolumes claim n name
  refine hpods.shows ((filter_concat_of_not_mem Volume.name _ hfree).trans hs.volumes) ?_ hs.inits
  rw [hmounts, filter_concat_of_not_mem VolumeMount.name _ hfree]
  exact hs.mounts live (mem_named_of_primary hlive)

theorem Phase.name_mem_reservedVolumes {v : Volume} (hv : v ∈ phase.volumes name) :
    v.name ∈ reservedVolumes name := by
  cases phase with
  | build => cases hv
  | dev => exact List.mem_map_of_mem (f := Volume.name) hv
  | torn =>
    cases List.mem_singleton.mp hv
    exact List.mem_cons_self

/-- The one volume of dev mode that is bound to a claim is that of the application. -/
theorem Phase.binds_iff {v : Volume} {claim : String} :
    v ∈ phase.volumes name ∧ bindsClaim claim v = true ↔
      phase = .dev ∧ claim = appDataClaim name ∧ v = claimVolume claim (appDataVolume name) := by
  constructor
  · rintro ⟨hv, hbinds⟩
    cases phase with
    | build => cases hv
    | torn =>
      cases List.mem_singleton.mp hv
      cases hbinds
    | dev =>
      rcases List.mem_cons.mp hv with rfl | hv
      · cases hbinds
      · cases List.mem_singleton.mp hv
        have hclaim : appDataClaim name = claim := of_decide_eq_true hbinds
        rw [← hclaim]
        exact ⟨rfl, rfl, rfl⟩
  · rintro ⟨rfl, rfl, rfl⟩
    exact ⟨List.mem_cons_of_mem _ List.mem_cons_self, decide_eq_true rfl⟩

/-- What is left of dev mode when a volume is taken away that is the only one of a claim. -/
theorem Phase.left_of_removeClaim {claim volume : String}
    (hbound : ∀ v ∈ phase.volumes name, bindsClaim claim v = true → v.name = volume)
    (hvolume : volume ∈ reservedVolumes name →
      ∃ v ∈ phase.volumes name, bindsClaim claim v = true) :
    (phase.volumes name).filter (fun v => v.name ≠ volume) =
        (phase.after name (.removeClaim claim)).volumes name ∧
      (phase.after name (.removeClaim claim)).inits = phase.inits := by
  rw [after_removeClaim]
  by_cases happ : phase = dev ∧ claim = appDataClaim name
  · rw [if_pos happ]
    obtain ⟨rfl, hclaim⟩ := happ
    obtain ⟨hmem, hbinds⟩ := Phase.binds_iff.mpr ⟨rfl, hclaim, rfl⟩
    have hvolume : appDataVolume name = volume := hbound _ hmem hbinds
    have hne := scratchVolume_ne_appDataVolume name
    refine ⟨?_, rfl⟩
    rw [← hvolume]
    show List.filter _ (_ :: _ :: []) = [_]
    rw [List.filter_cons_of_pos (by simpa using hne), List.filter_cons_of_neg (by simp),
      List.filter_nil]
  · -- What is taken away is a volume of the user's, so nothing of dev mode has its name.
    rw [if_neg happ]
    refine ⟨List.filter_eq_self.mpr fun v hv => decide_eq_true ?_, rfl⟩
    rintro rfl
    obtain ⟨v', hv', hbinds⟩ := hvolume (name_mem_reservedVolumes hv)
    obtain ⟨hdev, hclaim, -⟩ := Phase.binds_iff.mp ⟨hv', hbinds⟩
    exact happ ⟨hdev, hclaim⟩

/-- A claim that is taken off takes along what there is of dev mode for it. -/
theorem Shows.detach {claim volume : String} (hs : Shows name d phase)
    (h : d.detachClaim name claim = .ok (d', volume)) :
    Shows name d' (phase.after name (.removeClaim claim)) := by
  obtain ⟨hbound, live, q, hlive, -, hpods, hmounts⟩ := podsOver_detachClaim h
  obtain ⟨hone, v, hv, hbinds, hvolume⟩ := of_volumesOf_eq_singleton hbound
  -- The volumes that are shown are the workload's own of those names, so what is known of the one
  -- that goes can be said of them.
  have hshown : ∀ v, v ∈ phase.volumes name ↔ v ∈ d.volumes ∧ v.name ∈ reservedVolumes name := by
    intro v
    rw [← hs.volumes, List.mem_filter, decide_eq_true_iff]
  obtain ⟨hleft, hinits⟩ : (phase.volumes name).filter (fun v => v.name ≠ volume) =
        (phase.after name (.removeClaim claim)).volumes name ∧
      (phase.after name (.removeClaim claim)).inits = phase.inits := by
    refine Phase.left_of_removeClaim (fun v hv => hone v ((hshown v).mp hv).1) fun hreserved => ?_
    exact ⟨v, (hshown v).mpr ⟨hv, hvolume ▸ hreserved⟩, hbinds⟩
  refine hpods.shows ?_ ?_ (hs.inits.trans hinits.symm)
  · rw [List.filter_comm, hs.volumes, hleft]
  · rw [hmounts, List.filter_comm, map_filter_ne VolumeMount.name,
      hs.mounts live (mem_named_of_primary hlive), ← map_filter_ne Volume.name, hleft]

/-- **One task** leads from one phase to the next. -/
theorem Task.Makes.shows {task : Task} (h : task.Makes name d d') (hname : d.name = name)
    (hs : Shows name d phase) : Shows name d' (phase.after name task) := by
  have hmakes := h
  cases h with
  | toDev => exact hmakes.shows_toDev
  | toBuild => exact hmakes.shows_toBuild hname
  | attach n h => exact hs.attach h
  | detach h => exact hs.detach h
  | setVars h =>
    obtain ⟨live, q, hlive, hpods, hmounts⟩ := podsOver_putEnvVars h
    refine hpods.shows hs.volumes ?_ hs.inits
    rw [hmounts]
    exact hs.mounts live (mem_named_of_primary hlive)
  | annotate => exact ⟨hs.volumes, hs.mounts, hs.inits, hs.primary⟩

/-- **All tasks of a session**: the phase in the end is the one that the tasks lead to. -/
theorem Story.shows {log : List Deed} (h : Story name d log d') (hs : Shows name d phase) :
    Shows name d' ((log.map (·.task)).foldl (Phase.after name) phase) := by
  induction h generalizing phase with
  | nil => exact hs
  | cons hname hmakes _ ih =>
    have hnext := hmakes.shows hname hs
    exact ih ⟨hnext.volumes, hnext.mounts, hnext.inits, hnext.primary⟩

end

/-! ## Modes throughout a session -/

/-- A patch to build mode of a workload that passes the check fails for its marks only. -/
theorem kind_of_buildPatch {component : ComponentMeta} {reference : ImageReference}
    {d : DeploymentConfig} {live : Container} {e : Failure} (hname : d.name = component.name)
    (hlive : d.primary component.name = .ok live) (hcheck : checkDevMode d = .ok ())
    (h : patchEdit component.name (wantedInBuildMode component reference) (some stripDevMode) d
      = .error e) : e.kind = .invalid := by
  have hwanted : wantedInBuildMode component reference d =
      .ok (buildModeWorkload component d live reference) := by
    unfold wantedInBuildMode
    rw [hlive]
    rfl
  obtain ⟨built, _, hbuilt, -, -⟩ := podsOver_buildMode reference hname hlive hcheck
  rcases bind_eq_error_iff.mp h with hdesired | ⟨wanted, hdesired, h⟩
  · cases hwanted.symm.trans hdesired
  cases hwanted.symm.trans hdesired
  rcases bind_eq_error_iff.mp h with hmark | ⟨_, -, h⟩
  · unfold wantedSourceType at hmark
    split at hmark
    · cases hmark
    · cases hmark
      rfl
  · rcases bind_eq_error_iff.mp h with hupdate | ⟨_, -, h⟩
    · cases hbuilt.symm.trans hupdate
    · cases h

/-- **Exactly when a workload is wholly in one mode**: after a session that began in build mode, the
workload is in the mode that the tasks lead to, and in neither if the claim of the application was
taken off in dev mode and no switch came after that. In dev mode a switch to build mode never calls
it corrupt; otherwise such a switch never succeeds. -/
theorem session_mode_iff {w w' : World} {name : String} {d : DeploymentConfig} {log : List Deed}
    (hw : w.Reachable) (hd : w.stored name = some d) (hname : d.name = name)
    (hbuild : d.InBuildMode name) (h : Session name w log w') :
    ∃ d', w'.stored name = some d' ∧
      (d'.InBuildMode name ↔ Phase.ofTasks name (log.map (·.task)) = .build) ∧
      (d'.InDevMode name ↔ Phase.ofTasks name (log.map (·.task)) = .dev) ∧
      (d'.InBuildMode name ∨ d'.InDevMode name ↔ Phase.ofTasks name (log.map (·.task)) ≠ .torn) ∧
      ∀ (s : Settings) (image : String) (t : List (Event Unit))
        (r : Except Failure DeploymentConfig) (w'' : World),
        Untouched name t → Run (toBuildMode s name image).run w' t (some r) w'' →
        (d'.InDevMode name → ∀ e, r = .error e → e.kind ≠ .corruption) ∧
        (¬ d'.InDevMode name → ∀ built, r ≠ .ok built) := by
  obtain ⟨hw', d', hd', hname', hstory⟩ := h.story hw.sound hd hname
  have hshows : Shows name d' (Phase.ofTasks name (log.map (·.task))) :=
    hstory.shows (shows_build_iff.mpr hbuild)
  refine ⟨d', hd', hshows.inBuildMode_iff, hshows.inDevMode_iff, ?_, ?_⟩
  · rw [hshows.inBuildMode_iff, hshows.inDevMode_iff]
    cases Phase.ofTasks name (log.map (·.task)) <;> decide
  · intro s image t r w'' hu hrun
    constructor
    · -- Whatever the switch calls corrupt it finds in `d'`, which passes the check in dev mode.
      rintro hdev e rfl hkind
      obtain ⟨component, reference, e', rfl, hpatch, hkind'⟩ :=
        hrun.toBuildMode_corrupt hw' hd' hname' hu hkind
      obtain ⟨-, -, ⟨live, hlive, -⟩, -⟩ := id hdev
      have hcheck := (hshows.checkDevMode_iff hname' hlive).mpr (hshows.inDevMode_iff.mp hdev)
      rw [kind_of_buildPatch hname' hlive hcheck hpatch] at hkind'
      cases hkind'
    · -- A switch that succeeds has passed the check, and nothing but dev mode passes it.
      rintro hdev built rfl
      replace hrun : Run (toMode s .build name image).run w' t (some (.ok built)) w'' := hrun
      obtain ⟨_, _, hmakes, -, -⟩ := hrun.stored_switch hw' hd' hname' hu
      obtain ⟨hcheck, live, _, hlive, -⟩ := hmakes.pods_toBuild hname'
      exact hdev (hshows.inDevMode_iff.mpr ((hshows.checkDevMode_iff hname' hlive).mp hcheck))

/-- The shop as it is stored. -/
theorem exists_stored_shop : ∃ d, shopWorld.stored "web" = some d ∧ d.name = "web" ∧
    d.InBuildMode "web" := by
  obtain ⟨hvolumes, hmounts, hinits⟩ := inBuildMode_shopWorkload
  exact ⟨Resource.withVersion "1" shopWorkload, rfl, rfl, hvolumes, hmounts, hinits⟩

/-- The shop is switched there, back and there again. -/
def switchingTasks : List Task :=
  [.switch .dev "nodejs", .addClaim "orders" "/orders", .switch .build "web:2",
    .switch .dev "nodejs", .removeClaim "orders"]

theorem exists_switchingSession : ∃ log w', Session "web" shopWorld log w' ∧
    Phase.ofTasks "web" (log.map (·.task)) = .dev := by
  have hdev : (playTasks "web" 16 switchingTasks shopWorld).any (fun r =>
      Phase.ofTasks "web" (r.1.map (·.task)) = .dev) = true := by decide +kernel
  obtain ⟨⟨log, w'⟩, hr, hphase⟩ := (Option.any_eq_true _ _).mp hdev
  exact ⟨log, w', .of_playTasks hr, of_decide_eq_true hphase⟩

theorem session_mode_iff_shop :
    shopWorld.Reachable ∧ ∃ d log w' d', shopWorld.stored "web" = some d ∧ d.name = "web" ∧
      d.InBuildMode "web" ∧ Session "web" shopWorld log w' ∧ w'.stored "web" = some d' ∧
      d'.InDevMode "web" ∧
      ∀ (s : Settings) (image : String) (t : List (Event Unit)) (e : Failure) (w'' : World),
        Untouched "web" t → Run (toBuildMode s "web" image).run w' t (some (.error e)) w'' →
        e.kind ≠ .corruption := by
  obtain ⟨d, hd, hname, hbuild⟩ := exists_stored_shop
  obtain ⟨log, w', hsession, hphase⟩ := exists_switchingSession
  obtain ⟨d', hd', -, hdev, -, hback⟩ :=
    session_mode_iff reachable_shopWorld hd hname hbuild hsession
  refine ⟨reachable_shopWorld, d, log, w', d', hd, hname, hbuild, hsession, hd',
    hdev.mpr hphase, ?_⟩
  intro s image t e w'' hu hrun
  exact (hback s image t _ w'' hu hrun).1 (hdev.mpr hphase) e rfl

/-- **A workload can be left in neither mode**: not every session that began in build mode ends in
one of the modes. -/
theorem removeClaim_tears_dev_mode :
    ¬ ∀ {w w' : World} {name : String} {d : DeploymentConfig} {log : List Deed}, w.Reachable →
      w.stored name = some d → d.name = name → d.InBuildMode name → Session name w log w' →
      ∃ d', w'.stored name = some d' ∧ (d'.InBuildMode name ∨ d'.InDevMode name) := by
  intro h
  have htorn : (playTasks "web" 12 [.switch .dev "nodejs", .removeClaim "web-s2idata"]
      shopWorld).any (fun r => (r.2.stored "web").any fun d => d.claimOf "web-s2idata" = none ∧
        (d.volumes.map (·.name)).contains scratchVolume) = true := by decide +kernel
  obtain ⟨⟨log, w'⟩, hr, hstored⟩ := (Option.any_eq_true _ _).mp htorn
  obtain ⟨d', hd', hcheck⟩ := (Option.any_eq_true _ _).mp hstored
  obtain ⟨hclaim, hscratch⟩ := of_decide_eq_true hcheck
  obtain ⟨d, hd, hname, hbuild⟩ := exists_stored_shop
  obtain ⟨d'', hd'', hmode⟩ := h reachable_shopWorld hd hname hbuild (.of_playTasks hr)
  cases hd'.symm.trans hd''
  rcases hmode with ⟨hvolumes, -, -⟩ | ⟨-, hbound, -, -⟩
  · obtain ⟨v, hv, hname⟩ := List.mem_map.mp (List.contains_iff_mem.mp hscratch)
    exact hvolumes v hv (hname ▸ List.mem_cons_self)
  · replace hbound : d'.claimOf "web-s2idata" = some "web-s2idata" := hbound
    rw [hclaim] at hbound
    cases hbound

end InnerLoop
