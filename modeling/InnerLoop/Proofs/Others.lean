import InnerLoop.Program.World
import InnerLoop.Proofs.StoreStep

/-!
# What others do

A program is not alone in the world. Between any two of its questions others may do what they like,
as long as they change the stores of workloads and claims by the operations of a store.

- `Others`: what others may do in one turn. The answer to a question is such a turn for everyone who
  did not ask it (`World.others_of_answer`).
- `Quiet`: a turn in which no workload is written, as is the answer to any question but an update
  (`World.quiet_of_answer`).
- `World.Reachable`: the worlds that turns lead to from empty stores; their stores are sound.
- `Cluster.updateWorkload_eq_ok`, `Cluster.createClaim_eq_ok`, `Cluster.deleteClaim_eq_ok`: what a
  request did to the stores if it was granted, each with what it means if it was not.
-/

namespace InnerLoop

/-! ## What others do -/

/-- What may happen to a world in one turn of others. Clocks, injected conflicts, images, pods and
all the rest may change at will; events of workloads may even be made up. -/
structure Others (w w' : World) : Prop where
  workloads : w'.cluster.workloads = w.cluster.workloads ∨
    StoreStep w.cluster.workloads w'.cluster.workloads ∨
    ∃ e, w'.cluster.workloads = w.cluster.workloads.publish e
  claims : w'.cluster.claims = w.cluster.claims ∨ StoreStep w.cluster.claims w'.cluster.claims

theorem Others.same {w w' : World} (hw : w'.cluster.workloads = w.cluster.workloads)
    (hc : w'.cluster.claims = w.cluster.claims) : Others w w' :=
  ⟨.inl hw, .inl hc⟩

/-- A turn of others in which no workload is written. -/
structure Quiet (w w' : World) : Prop extends Others w w' where
  objects : w'.cluster.workloads.objects = w.cluster.workloads.objects

namespace Quiet

theorem same {w w' : World} (hw : w'.cluster.workloads = w.cluster.workloads)
    (hc : w'.cluster.claims = w.cluster.claims) : Quiet w w' :=
  ⟨.same hw hc, by rw [hw]⟩

theorem ofClaims {w w' : World} (hw : w'.cluster.workloads = w.cluster.workloads)
    (hc : StoreStep w.cluster.claims w'.cluster.claims) : Quiet w w' :=
  ⟨⟨.inl hw, .inr hc⟩, by rw [hw]⟩

theorem dropWatch (w : World) (k : Kind) (handle : Nat) : Quiet w (w.dropWatch k handle) := by
  cases k with
  | workload => exact ⟨⟨.inr (.inl (.dropWatch handle)), .inl rfl⟩, rfl⟩
  | claim => exact ofClaims rfl (.dropWatch handle)
  | pod => exact same rfl rfl
  | secret => exact same rfl rfl
  | build => exact same rfl rfl

theorem watch (w : World) (k : Kind) (s : Selector) :
    Quiet w (w.modifyCluster (·.withStore k ((w.cluster.store k).watch s).2)) := by
  cases k with
  | workload => exact ⟨⟨.inr (.inl (.watch s)), .inl rfl⟩, rfl⟩
  | claim => exact ofClaims rfl (.watch s)
  | pod => exact same rfl rfl
  | secret => exact same rfl rfl
  | build => exact same rfl rfl

theorem dropJob (w : World) (job : Nat) : Quiet w (w.dropJob job) := by
  unfold World.dropJob
  split
  · have hdrop := dropWatch w .pod
    exact ⟨⟨(hdrop _).workloads, (hdrop _).claims⟩, (hdrop _).objects⟩
  · exact same rfl rfl

end Quiet

/-- The question is an update of a workload. -/
def Request.IsUpdate : Request → Prop
  | .updateWorkload _ => True
  | _ => False

namespace Cluster

/-- An update that is accepted is a replacement in the store of workloads. -/
theorem updateWorkload_eq_ok {c c' : Cluster} {sent stored : DeploymentConfig}
    (h : c.updateWorkload sent = (.ok stored, c')) :
    c.workloads.replace sent = .ok (stored, c'.workloads) ∧ c'.claims = c.claims := by
  unfold updateWorkload at h
  dsimp only at h
  split at h
  · cases h
  · split at h
    · rename_i hreplace
      cases h
      exact ⟨hreplace, rfl⟩
    · cases h

/-- An update that is refused changes neither store, and is refused for want of the workload or for
a conflict. -/
theorem updateWorkload_eq_error {c c' : Cluster} {sent : DeploymentConfig} {fault : ClusterFault}
    (h : c.updateWorkload sent = (.error fault, c')) :
    c'.workloads = c.workloads ∧ c'.claims = c.claims ∧
      (fault.isNotFound = true ∨ fault.isConflict = true) := by
  unfold updateWorkload at h
  dsimp only at h
  split at h
  · cases h
    exact ⟨rfl, rfl, .inr rfl⟩
  · split at h
    · cases h
    · rename_i hreplace
      cases h
      exact ⟨rfl, rfl, Store.replace_eq_error hreplace⟩

theorem stores_instantiateBuild (c : Cluster) (config : String) :
    (c.instantiateBuild config).2.workloads = c.workloads ∧
      (c.instantiateBuild config).2.claims = c.claims := by
  unfold instantiateBuild
  split
  · exact ⟨rfl, rfl⟩
  · dsimp only
    split <;> exact ⟨rfl, rfl⟩

theorem stores_beginExec (c : Cluster) (pod : String) :
    (c.beginExec pod).2.workloads = c.workloads ∧ (c.beginExec pod).2.claims = c.claims := by
  unfold beginExec
  split <;> exact ⟨rfl, rfl⟩

/-- A claim that is created is a new one of its name. -/
theorem createClaim_eq_ok {c c' : Cluster} {name size : String} {labels : TextMap} {claim : Claim}
    (h : c.createClaim name size labels = (.ok claim, c')) :
    c'.workloads = c.workloads ∧
      ∃ o, Resource.nameOf o = name ∧ c.claims.create o = .ok (claim, c'.claims) := by
  unfold createClaim at h
  split at h
  · cases h
  · dsimp only at h
    split at h
    · cases h
    · rename_i hcreate
      cases h
      exact ⟨rfl, _, rfl, hcreate⟩

/-- A claim that is not created changes nothing; if it conflicts, there is one of its name. -/
theorem createClaim_eq_error {c c' : Cluster} {name size : String} {labels : TextMap}
    {fault : ClusterFault} (h : c.createClaim name size labels = (.error fault, c')) :
    c' = c ∧ (fault.isConflict = true → c.claims.contains name = true) := by
  unfold createClaim at h
  split at h
  · cases h
    exact ⟨rfl, fun h => nomatch h⟩
  · dsimp only at h
    split at h
    · rename_i hcreate
      cases h
      refine ⟨rfl, fun _ => ?_⟩
      unfold Store.create at hcreate
      dsimp only at hcreate
      split at hcreate
      · assumption
      · cases hcreate
    · cases h

/-- A claim that is deleted is removed, unless claims are held. -/
theorem deleteClaim_eq_ok {c c' : Cluster} {name : String}
    (h : c.deleteClaim name = (.ok (), c')) :
    c'.workloads = c.workloads ∧
      (c'.claims = c.claims ∨ ∃ o, c.claims.remove name = .ok (o, c'.claims)) := by
  unfold deleteClaim at h
  split at h
  · have hc : c = c' := congrArg Prod.snd h
    exact ⟨by rw [hc], .inl (by rw [hc])⟩
  · split at h
    · cases h
    · rename_i hremove
      cases h
      exact ⟨rfl, .inr ⟨_, hremove⟩⟩

/-- A claim that is not deleted changes nothing, and is not there. -/
theorem deleteClaim_eq_error {c c' : Cluster} {name : String} {fault : ClusterFault}
    (h : c.deleteClaim name = (.error fault, c')) :
    c' = c ∧ c.claims.contains name = false := by
  have hget : c' = c ∧ c.claims.get name = .error fault := by
    unfold deleteClaim at h
    split at h
    · obtain ⟨hmap, hc⟩ := Prod.mk.inj h
      refine ⟨hc.symm, ?_⟩
      cases hget : c.claims.get name with
      | ok o => rw [hget] at hmap; cases hmap
      | error e => rw [hget] at hmap; cases hmap; rfl
    · split at h
      · rename_i hremove
        cases h
        refine ⟨rfl, ?_⟩
        rcases bind_eq_error_iff.mp hremove with hget | ⟨_, _, hremove⟩
        · exact hget
        · cases hremove
      · cases h
  exact ⟨hget.1, (Store.get_eq_error_iff.mp hget.2).2⟩

end Cluster

namespace World

variable {w w' : World}

/-- A request to the cluster does to the world what it does to the cluster. -/
theorem cluster_of_request {α : Type} {f : Cluster → α × Cluster} {a : α}
    (h : some (w.request f) = some (a, w')) : f w.cluster = (a, w'.cluster) := by
  cases h
  rfl

theorem others_of_updateWorkload {sent : DeploymentConfig}
    {reply : Except ClusterFault DeploymentConfig}
    (h : w.cluster.updateWorkload sent = (reply, w'.cluster)) : Others w w' := by
  cases reply with
  | error fault =>
    obtain ⟨hw, hc, -⟩ := Cluster.updateWorkload_eq_error h
    exact .same hw hc
  | ok stored =>
    obtain ⟨hreplace, hc⟩ := Cluster.updateWorkload_eq_ok h
    exact ⟨.inr (.inl (.replace hreplace)), .inl hc⟩

theorem quiet_of_createClaim {name size : String} {labels : TextMap}
    {reply : Except ClusterFault Claim}
    (h : w.cluster.createClaim name size labels = (reply, w'.cluster)) : Quiet w w' := by
  cases reply with
  | error fault =>
    obtain ⟨hc, -⟩ := Cluster.createClaim_eq_error h
    exact .same (by rw [hc]) (by rw [hc])
  | ok claim =>
    obtain ⟨hw, _, -, hcreate⟩ := Cluster.createClaim_eq_ok h
    exact .ofClaims hw (.create hcreate)

theorem quiet_of_deleteClaim {name : String} {reply : Except ClusterFault Unit}
    (h : w.cluster.deleteClaim name = (reply, w'.cluster)) : Quiet w w' := by
  cases reply with
  | error fault =>
    obtain ⟨hc, -⟩ := Cluster.deleteClaim_eq_error h
    exact .same (by rw [hc]) (by rw [hc])
  | ok =>
    obtain ⟨hw, hc | ⟨_, hremove⟩⟩ := Cluster.deleteClaim_eq_ok h
    · exact .same hw hc
    · exact .ofClaims hw (.remove hremove)

/-- The answer to any question but an update writes no workload. -/
theorem quiet_of_answer {r : Request} {reply : r.Reply} (h : w.answer r = some (reply, w'))
    (hr : ¬ r.IsUpdate) : Quiet w w' := by
  cases r with
  | now => cases h; exact .same rfl rfl
  | sleepUntil time =>
    replace h : (if time ≤ w.clock then some ((), w) else none) = some (reply, w') := h
    split at h
    · cases h; exact .same rfl rfl
    · cases h
  | pause => cases h
  | mint => cases h; exact .same rfl rfl
  | getWorkload name => cases h; exact .same rfl rfl
  | updateWorkload d => exact absurd trivial hr
  | instantiateBuild config =>
    cases h
    exact .same (Cluster.stores_instantiateBuild _ config).1
      (Cluster.stores_instantiateBuild _ config).2
  | getClaim name => cases h; exact .same rfl rfl
  | createClaim name size labels => exact quiet_of_createClaim (cluster_of_request h)
  | deleteClaim name => exact quiet_of_deleteClaim (cluster_of_request h)
  | imageMetadata ns tag => cases h; exact .same rfl rfl
  | watch k s => cases h; exact .watch w k s
  | dropWatch k handle => cases h; exact .dropWatch w k handle
  | await k handle deadline check =>
    replace h : (if deadline ≤ w.clock then some (.timedOut, w.dropWatch k handle)
      else (w.ending? k handle check).map fun e => (e, w.dropWatch k handle))
        = some (reply, w') := h
    split at h
    · cases h; exact .dropWatch w k handle
    · obtain ⟨e, -, he⟩ := Option.map_eq_some_iff.mp h
      cases he
      exact .dropWatch w k handle
  | startPodWait handle => cases h; exact .same rfl rfl
  | joinPodWait job deadline =>
    unfold answer at h
    dsimp only at h
    split at h
    · cases h; exact .dropJob w job
    · split at h
      · cases h; exact .dropJob w job
      · cases h
  | beginExec pod =>
    cases h
    exact .same (Cluster.stores_beginExec _ pod).1 (Cluster.stores_beginExec _ pod).2
  | endExec call => cases h; exact .same rfl rfl
  | scan root => cases h; exact .same rfl rfl
  | buildManifest root changed => cases h; exact .same rfl rfl
  | readFiles m => cases h; exact .same rfl rfl
  | transfer trouble writing => cases h; exact .same rfl rfl

/-- The answer to a question is a turn like any other for those who did not ask. -/
theorem others_of_answer {r : Request} {reply : r.Reply} (h : w.answer r = some (reply, w')) :
    Others w w' := by
  by_cases hr : r.IsUpdate
  · cases r with
    | updateWorkload d => exact others_of_updateWorkload (cluster_of_request h)
    | _ => exact hr.elim
  · exact (quiet_of_answer h hr).toOthers

/-! ## Worlds that can come about -/

/-- The worlds that turns of others lead to from empty stores. -/
inductive Reachable : World → Prop
  | start {w : World} (hw : w.cluster.workloads = {}) (hc : w.cluster.claims = {}) : Reachable w
  | turn {w w' : World} (hw : Reachable w) (h : Others w w') : Reachable w'

/-- The stores of workloads and claims are sound. -/
structure Sound (w : World) : Prop where
  workloads : w.cluster.workloads.Sound
  claims : w.cluster.claims.Sound

end World

/-- A turn keeps the stores sound. -/
theorem Others.sound {w w' : World} (h : Others w w') (hs : w.Sound) : w'.Sound where
  workloads := by
    rcases h.workloads with hw | hw | ⟨e, hw⟩
    · rw [hw]
      exact hs.workloads
    · exact hw.sound hs.workloads
    · rw [hw]
      exact hs.workloads.publish e
  claims := by
    rcases h.claims with hc | hc
    · rw [hc]
      exact hs.claims
    · exact hc.sound hs.claims

/-- A turn gives no old version to any workload. -/
theorem Others.since {w w' : World} (h : Others w w') :
    Store.Since w.cluster.workloads w'.cluster.workloads := by
  rcases h.workloads with hw | hw | ⟨e, hw⟩
  · rw [hw]
    exact .refl _
  · exact hw.since
  · rw [hw]
    exact ⟨Nat.le_refl _, fun _ _ _ ho _ _ => ho⟩

theorem World.Reachable.sound {w : World} (h : w.Reachable) : w.Sound := by
  induction h with
  | start hw hc =>
    refine ⟨?_, ?_⟩
    · rw [hw]
      exact .empty
    · rw [hc]
      exact .empty
  | turn _ h ih => exact h.sound ih

end InnerLoop
