import InnerLoop.Proofs.Marks

/-!
# What a patch does, and the claim step after it

A patch commits one update and then waits until it is seen; only afterwards is the claim looked
after. Each part fails in kinds of its own, so the kind tells how far it came.

- `Patched`, `Run.patched`: what a run of a patch did.
- `Run.claim_of_ensureClaim`: when a claim was ensured, it was there at some moment.
- `Run.gone_of_clearClaim`: when a claim was cleared, it was gone at some moment. A watch that was
  opened before is told of a deletion only when the claim goes, which `Watched` carries along the run.
-/

namespace InnerLoop

open Operation

/-! ## Waiting -/

/-- The kinds in which a wait for an object fails. -/
def waitKinds : List FailureKind := [.timeout, .watchTerminated, .conditionFailed]

/-- The kinds in which a write fails that has committed nothing. -/
def earlyKinds : List FailureKind := [.notFound, .conflict, .corruption, .invalid]

theorem kind_of_ending {κ : Type} {what : String} {after : Duration} {ending : Ending κ}
    {e : Failure} (h : ending.result what after = .error e) : e.kind ∈ waitKinds := by
  cases ending with
  | satisfied o => cases h
  | failed reason =>
    cases h
    show FailureKind.conditionFailed ∈ waitKinds
    decide
  | terminated reason =>
    cases h
    show FailureKind.watchTerminated ∈ waitKinds
    decide
  | timedOut =>
    cases h
    show FailureKind.timeout ∈ waitKinds
    decide

theorem fails_awaitObject {k : Kind} {selector : Selector} {what : String} {timeout : Nat}
    {check : Change → k.Object → Verdict} :
    (awaitObject k selector what timeout check).Fails fun e => e.kind ∈ waitKinds :=
  (Fails.ask _).bind fun _ => (Fails.ask _).bind fun _ => (Fails.ask _).bind fun _ =>
    .given fun _ h => kind_of_ending h

/-! ## Patches -/

/-- What a run of a patch did: it failed early and committed nothing, or it committed once and
answers that, unless the wait after it failed. -/
inductive Patched (name : String) (f : Edit String) (t : List (Event Unit))
    (res : Option (Except Failure DeploymentConfig)) : Prop
  | untouched (h : commits t = []) (hres : ∀ r ∈ res, ∃ e, r = .error e ∧ e.kind ∈ earlyKinds)
  | committed (c : Commit) (current : DeploymentConfig) (sourceType : String) (h : commits t = [c])
      (happ : c.Applies name f current sourceType)
      (hres : ∀ r ∈ res, r = .ok c.stored ∨ ∃ e, r = .error e ∧ e.kind ∈ waitKinds)

/-- What a patch computes fails only by refusing. -/
theorem Refusing.patchEdit {name : String}
    {desired : DeploymentConfig → Except Failure DeploymentConfig} {hook : Option PatchHook}
    (hdesired : ∀ d, Refusing (desired d)) (hhook : ∀ k ∈ hook, ∀ d d', Refusing (k d d'))
    (current : DeploymentConfig) : Refusing (patchEdit name desired hook current) :=
  (hdesired current).bind fun wanted => (Refusing.wantedSourceType wanted).bind fun _ =>
    (Refusing.prepareUpdate name current wanted fun k hk d => hhook k hk current d).bind fun _ =>
      .ok _

section

variable {w w' : World} {t : List (Event Unit)} {s : Settings} {name : String}
  {desired : DeploymentConfig → Except Failure DeploymentConfig} {hook : Option PatchHook}

/-- The kinds in which an edit fails are early ones. -/
theorem early_of_edited {e : Failure} (hf : ∀ d, Refusing (patchEdit name desired hook d))
    (h : e.kind = .notFound ∨ e.kind = .conflict ∨ ∃ d, patchEdit name desired hook d = .error e) :
    e.kind ∈ earlyKinds := by
  rcases h with h | h | ⟨d, h⟩
  · rw [h]; decide
  · rw [h]; decide
  · rcases hf d e h with h | h
    · rw [h]; decide
    · rw [h]; decide

/-- The write of a patch does what one attempt does; a failure says what was being done. -/
theorem Run.patchWrite {res : Option (Except Failure (DeploymentConfig × String))} (hw : w.Sound)
    (h : Run (within (.patch name)
      (retrying s name (patchOnce name desired hook))).run w t res w') :
    ∃ r, Edited name (patchEdit name desired hook) Prod.mk t r ∧
      res = r.map (Failure.within (.patch name)) := by
  obtain ⟨r, hrun, hres⟩ := h.map_cases
  rw [patchOnce_eq] at hrun
  refine ⟨r, hrun.edited_retrying ?_ hw, hres⟩
  exact fun hw h => h.edited_once (keepsIdentity_patchEdit _ _ _) hw

/-- The wait after a patch commits nothing, and fails in kinds of its own. -/
theorem Run.confirmed {condition : Condition} {timeout : Nat} {d : DeploymentConfig}
    {res : Option (Except Failure DeploymentConfig)}
    (h : Run (within (.confirmUpdate name) (waitForWorkload name condition timeout) >>=
      fun _ => pure d).run w t res w') :
    commits t = [] ∧ ∀ r ∈ res, r = .ok d ∨ ∃ e, r = .error e ∧ e.kind ∈ waitKinds := by
  rw [run_bind_pure] at h
  obtain ⟨r, hwait, rfl⟩ := h.map_cases
  have hfails : ∀ r' ∈ r, ∀ e, r' = .error e → e.kind ∈ waitKinds :=
    hwait.ends (Fails.within fails_awaitObject fun _ he => he)
  have hquiet : (within (.confirmUpdate name) (waitForWorkload name condition timeout)).Asks
      fun r => ¬ r.IsUpdate := .within (.awaitObject id id fun _ _ => id) _
  refine ⟨commits_eq_nil (hwait.forall_asked hquiet), ?_⟩
  intro r' hr'
  obtain ⟨a, ha, rfl⟩ := Option.map_eq_some_iff.mp hr'
  cases a with
  | ok _ => exact .inl rfl
  | error e => exact .inr ⟨e, rfl, hfails _ ha e rfl⟩

/-- **Patches**: a patch fails early and has committed nothing, or it commits once and can then only
fail to see it. -/
theorem Run.patched {res : Option (Except Failure DeploymentConfig)}
    (hf : ∀ d, Refusing (patchEdit name desired hook d)) (hw : w.Sound)
    (h : Run (patchWorkloadWith s name desired hook).run w t res w') :
    Patched name (patchEdit name desired hook) t res := by
  rcases h.operation_cases with
    ⟨rfl, hrun⟩ | ⟨e, rfl, hrun⟩ | ⟨⟨updated, sourceType⟩, t₁, t₂, w₁, rfl, hrun, hrest⟩
  · obtain ⟨r, hedited, -⟩ := hrun.patchWrite hw
    cases hedited with
    | untouched h _ => exact .untouched h fun _ hr => nomatch hr
    | committed c current b h happ _ => exact .committed c current b h happ fun _ hr => nomatch hr
  · obtain ⟨r, hedited, hr⟩ := hrun.patchWrite hw
    obtain ⟨x, rfl, hx⟩ := Option.map_eq_some_iff.mp hr.symm
    cases x with
    | ok a => cases hx
    | error e' =>
      cases hx
      obtain ⟨hnone, hkind⟩ := hedited.of_error
      refine .untouched hnone ?_
      rintro r ⟨⟩
      exact ⟨_, rfl, early_of_edited (e := e') hf hkind⟩
  · obtain ⟨r, hedited, hr⟩ := hrun.patchWrite hw
    obtain ⟨x, rfl, hx⟩ := Option.map_eq_some_iff.mp hr.symm
    cases x with
    | error e => cases hx
    | ok a =>
      cases hx
      cases hedited with
      | untouched _ hres =>
        obtain ⟨_, he, -⟩ := hres _ rfl
        cases he
      | committed c current b h happ hres =>
        cases hres _ rfl
        obtain ⟨hquiet, hconfirmed⟩ := Run.confirmed hrest
        refine .committed c current sourceType ?_ happ hconfirmed
        rw [commits_append, h, hquiet]
        rfl

/-- A patch asks for no claim to be created or deleted. -/
theorem asks_patchWorkloadWith :
    (patchWorkloadWith s name desired hook).Asks fun r => ¬ r.ChangesClaims := by
  have hread : (readWorkload name).Asks fun r => ¬ r.ChangesClaims := asks_readWorkload id
  have hwrite : ∀ d, (writeWorkload d).Asks fun r => ¬ r.ChangesClaims :=
    fun d => .ofCluster ⟨id, fun _ => trivial⟩
  have honce : (patchOnce name desired hook).Asks fun r => ¬ r.ChangesClaims :=
    hread.bind fun _ => .bind (.given _) fun _ => .bind (.given _) fun _ =>
      .bind (.given _) fun _ => (hwrite _).bind fun _ => .pure _
  exact .bind ((asks_retrying honce id fun _ => id).within _) fun _ =>
    .bind (.within (.awaitObject id id fun _ _ => id) _) fun _ => .pure _

end

/-! ## The claim after a switch to dev mode -/

section

variable {w w' : World} {t : List (Event Unit)} {s : Settings} {component claim : String}

theorem Store.contains_of_create {κ : Type} [Resource κ] [LawfulResource κ] {st st' : Store κ}
    {o o' : κ} (h : st.create o = .ok (o', st')) : st'.contains (Resource.nameOf o) = true := by
  have hst : (st.upsert o).2 = st' := congrArg Prod.snd (create_eq_ok h)
  show (st'.objects.find? (Resource.nameOf o)).isSome = true
  rw [← hst, find?_upsert, if_pos rfl]
  rfl

/-- If a claim was ensured, it was there at some moment: when it was created, or when that met the
claim that is there. -/
theorem Run.claim_of_ensureClaim
    (h : Run (ensureClaim s component).run w t (some (.ok ())) w') :
    ∃ e ∈ t, e.after.cluster.claims.contains (appDataClaim component) = true := by
  obtain ⟨reply, t₁, t₂, w₁, rfl, hask, hrest⟩ := h.ok_cases
  obtain ⟨t₃, t₄, w₂, w₃, rfl, -, -, hanswer, -⟩ := hask.ask_cases
  refine ⟨_, List.mem_append_left _ (List.mem_append_right _ List.mem_cons_self), ?_⟩
  show w₃.cluster.claims.contains _ = true
  have hcreate := World.cluster_of_request hanswer
  cases reply with
  | ok c =>
    obtain ⟨-, o, ho, hnew⟩ := Cluster.createClaim_eq_ok hcreate
    rw [← ho]
    exact Store.contains_of_create hnew
  | error fault =>
    obtain ⟨hsame, hthere⟩ := Cluster.createClaim_eq_error hcreate
    cases hc : fault.isConflict with
    | true =>
      rw [hsame]
      exact hthere hc
    | false =>
      -- Any other fault is thrown.
      replace hrest : Run (if fault.isConflict then pure () else throw (.partialCompletion
        (.switchToDev component) (.createClaim (appDataClaim component)) (.ofCluster fault)) :
          Operation Unit).run w₁ t₂ (some (.ok ())) w' := hrest
      rw [hc] at hrest
      cases hrest.of_done.2 _ rfl

end

/-! ## The claim after a switch to build mode -/

/-- A watch on a claim by name, which was told of a deletion only if the claim was gone at some
moment, as `gone` says. -/
structure Watched (w : World) (handle : Nat) (claim : String) (gone : Prop) : Prop where
  sound : w.Sound
  watches : w.cluster.claims.Watches handle claim
  told : w.cluster.claims.DeletionTold handle → gone

section

variable {w w' : World} {t : List (Event Unit)} {s : Settings} {claim : String} {handle : Nat}
  {gone : Prop}

/-- One turn keeps this up: the deletion that a watch is newly told of is that of the claim. -/
theorem Watched.turn (h : Watched w handle claim gone) (ho : Others w w')
    (hgone : w'.cluster.claims.contains claim = false → gone) : Watched w' handle claim gone := by
  refine ⟨ho.sound h.sound, ?_, ?_⟩
  · rcases ho.claims with hc | hc
    · rw [hc]
      exact h.watches
    · exact hc.watches h.watches
  · intro ht
    rcases ho.claims with hc | hc
    · rw [hc] at ht
      exact h.told ht
    · rcases hc.deletionTold h.sound.claims h.watches ht with ht | hfree
      · exact h.told ht
      · exact hgone hfree

/-- So do all turns, if the claim is gone whenever it is gone after one of them. -/
theorem Watched.turns {t : List (Event Unit)} (ht : Turns w t w') (h : Watched w handle claim gone)
    (hgone : ∀ e ∈ t, e.after.cluster.claims.contains claim = false → gone) :
    Watched w' handle claim gone := by
  induction ht with
  | nil => exact h
  | cons ho _ ih =>
    exact ih (h.turn ho (hgone _ List.mem_cons_self)) fun e he =>
      hgone e (List.mem_cons_of_mem _ he)

/-- What satisfies a wait for a deletion is the word of one. -/
theorem deleted_mem_of_satisfied {c : Claim} {queue : List (WatchEvent Claim)}
    (h : firstDecisive deletionVerdict queue = some (.satisfied c)) :
    .object .deleted c ∈ queue := by
  obtain ⟨e, he, hend⟩ := List.exists_of_findSome?_eq_some h
  cases e with
  | error reason => cases hend
  | object change o =>
    cases change with
    | deleted => cases hend; exact he
    | added => cases hend
    | modified => cases hend

/-- A wait for a deletion that was satisfied was told of one. -/
theorem told_of_await {deadline : Nat} {c : Claim}
    (h : w.answer (.await .claim handle deadline deletionVerdict) = some (.satisfied c, w')) :
    w.cluster.claims.DeletionTold handle := by
  replace h : (if deadline ≤ w.clock then some (.timedOut, w.dropWatch .claim handle)
    else (w.ending? .claim handle deletionVerdict).map fun e => (e, w.dropWatch .claim handle))
      = some (.satisfied c, w') := h
  split at h
  · cases h
  · obtain ⟨e, hending, he⟩ := Option.map_eq_some_iff.mp h
    cases he
    unfold World.ending? at hending
    split at hending
    · rename_i s hs
      obtain ⟨l₁, l₂, hsplit, -⟩ := List.lookup_eq_some_iff.mp hs
      have hmem : (handle, s) ∈ w.cluster.claims.watches := by
        show (handle, s) ∈ (w.cluster.store .claim).watches
        rw [hsplit]
        exact List.mem_append_right _ List.mem_cons_self
      refine ⟨s, c, hmem, deleted_mem_of_satisfied ?_⟩
      unfold Subscription.ending? at hending
      split at hending
      · rename_i hfirst
        cases hending
        exact hfirst
      · split at hending
        · cases hending
        · cases hending
    · cases hending

/-- A watch on a claim that was opened was told of nothing yet. -/
theorem Run.watched (hw : w.Sound)
    (h : Run (ask (.watch .claim (.name claim))).run w t (some (.ok handle)) w')
    (hgone : ∀ e ∈ t, e.after.cluster.claims.contains claim = false → gone) :
    Watched w' handle claim gone := by
  obtain ⟨t₁, t₂, w₁, w₂, rfl, -, h₁, hanswer, h₂⟩ := h.ask_cases
  cases hanswer
  obtain ⟨hwatches, htold⟩ := Store.watches_watch (h₁.sound hw).claims claim
  have hsound := (Quiet.watch w₁ .claim (.name claim)).toOthers.sound (h₁.sound hw)
  refine Watched.turns h₂ ⟨hsound, hwatches, fun ht => absurd ht htold⟩ ?_
  exact fun e he => hgone e (List.mem_append_right _ (List.mem_cons_of_mem _ he))

/-- If a watch on a claim ends with its deletion, the claim was gone at some moment. -/
theorem Run.gone_of_await {deadline : Nat} {c : Claim}
    (h : Run (ask (.await .claim handle deadline deletionVerdict)).run w t
      (some (.ok (.satisfied c))) w')
    (hwatched : Watched w handle claim gone)
    (hgone : ∀ e ∈ t, e.after.cluster.claims.contains claim = false → gone) : gone := by
  obtain ⟨t₁, t₂, w₁, w₂, rfl, -, h₁, hanswer, -⟩ := h.ask_cases
  refine (Watched.turns h₁ hwatched ?_).told (told_of_await hanswer)
  exact fun e he => hgone e (List.mem_append_left _ he)

/-- If a wait for the deletion of a claim succeeded, the claim was gone at some moment. -/
theorem Run.gone_of_waitForClaimDeletion (hw : w.Sound)
    (h : Run (waitForClaimDeletion s claim).run w t (some (.ok ())) w')
    (hgone : ∀ e ∈ t, e.after.cluster.claims.contains claim = false → gone) : gone := by
  obtain ⟨handle, t₁, t₂, w₁, rfl, hopen, hrest⟩ := h.ok_cases
  have hw₁ : Watched w₁ handle claim gone :=
    hopen.watched hw fun e he => hgone e (List.mem_append_left _ he)
  replace hgone : ∀ e ∈ t₂, e.after.cluster.claims.contains claim = false → gone :=
    fun e he => hgone e (List.mem_append_right _ he)
  obtain ⟨reply, t₃, t₄, w₂, rfl, hlook, hrest⟩ := hrest.ok_cases
  cases reply with
  | error fault =>
    -- The claim was gone when it was looked for.
    obtain ⟨t₅, t₆, w₃, w₄, rfl, -, -, hanswer, -⟩ := hlook.ask_cases
    obtain ⟨hget, rfl⟩ := Prod.mk.inj (Option.some.inj hanswer)
    exact hgone _ (List.mem_append_left _ (List.mem_append_right _ List.mem_cons_self))
      (Store.get_eq_error_iff.mp hget).2
  | ok c =>
    have hw₂ : Watched w₂ handle claim gone :=
      Watched.turns hlook.turns hw₁ fun e he => hgone e (List.mem_append_left _ he)
    replace hgone : ∀ e ∈ t₄, e.after.cluster.claims.contains claim = false → gone :=
      fun e he => hgone e (List.mem_append_right _ he)
    obtain ⟨now, t₅, t₆, w₃, rfl, hnow, hrest⟩ := hrest.ok_cases
    have hw₃ : Watched w₃ handle claim gone :=
      Watched.turns hnow.turns hw₂ fun e he => hgone e (List.mem_append_left _ he)
    replace hgone : ∀ e ∈ t₆, e.after.cluster.claims.contains claim = false → gone :=
      fun e he => hgone e (List.mem_append_right _ he)
    obtain ⟨ending, t₇, t₈, w₄, rfl, hawait, hrest⟩ := hrest.ok_cases
    cases ending with
    | satisfied c => exact hawait.gone_of_await hw₃ fun e he => hgone e (List.mem_append_left _ he)
    | failed reason => cases hrest.of_done.2 _ rfl
    | terminated reason => cases hrest.of_done.2 _ rfl
    | timedOut => cases hrest.of_done.2 _ rfl

/-- Clearing a claim writes no workload. -/
theorem asks_clearClaim : (clearClaim s claim).Asks fun r => ¬ r.IsUpdate := by
  have hgone : ∀ (b : Bool) (e : Failure), (if b then pure () else throw e : Operation Unit).Asks
      fun r => ¬ r.IsUpdate := by
    intro b e
    cases b with
    | true => exact Asks.pure _
    | false => exact Asks.throw _
  have hwait : (waitForClaimDeletion s claim).Asks fun r => ¬ r.IsUpdate := by
    refine .bind (.ask id) fun handle => .bind (.ask id) fun reply => ?_
    cases reply with
    | error fault => exact .bind (.ask id) fun _ => hgone _ _
    | ok c =>
      exact .bind (.ask id) fun _ => .bind (.ask id) fun _ => .bind (.given _) fun _ => .pure _
  refine .bind (.ask id) fun reply => ?_
  cases reply with
  | ok => exact hwait
  | error fault => exact hgone _ _

/-- If a claim was cleared, it was gone at some moment. -/
theorem Run.gone_of_clearClaim (hw : w.Sound)
    (h : Run (clearClaim s claim).run w t (some (.ok ())) w') :
    ∃ e ∈ t, e.after.cluster.claims.contains claim = false := by
  obtain ⟨reply, t₁, t₂, w₁, rfl, hask, hrest⟩ := h.ok_cases
  cases reply with
  | ok =>
    refine Run.gone_of_waitForClaimDeletion (hask.turns.sound hw) hrest ?_
    exact fun e he hfree => ⟨e, List.mem_append_right _ he, hfree⟩
  | error fault =>
    obtain ⟨t₃, t₄, w₂, w₃, rfl, -, -, hanswer, -⟩ := hask.ask_cases
    obtain ⟨hsame, hfree⟩ := Cluster.deleteClaim_eq_error (World.cluster_of_request hanswer)
    refine ⟨_, List.mem_append_left _ (List.mem_append_right _ List.mem_cons_self), ?_⟩
    show w₃.cluster.claims.contains _ = false
    rw [hsame]
    exact hfree

end

end InnerLoop
