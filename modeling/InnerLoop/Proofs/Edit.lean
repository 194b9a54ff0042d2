import InnerLoop.Operation.Patch
import InnerLoop.Proofs.Run

/-!
# Edits that are tried again

A write reads a workload, computes another from it and sends that, with the version that was read.
It is tried again from the read on as long as it meets other writers. However others interfere, it
commits at most once, and then what is stored was computed from what was stored just before.

- `Edit`: what is computed. It has to keep the name and the version.
- `editOnce`: one attempt; `changeOnce_eq` and `patchOnce_eq` say that the writes are of this kind.
- `Commit.Applies`: a commit puts the outcome of an edit in the place of what the edit started from.
- `Run.edited_once`, `Run.edited_retrying`: what a run of one attempt did, and of all of them.
-/

namespace InnerLoop

open Operation

variable {β γ : Type}

/-- What a write makes of the workload that it reads, with something to answer. -/
abbrev Edit (β : Type) := DeploymentConfig → Except Failure (DeploymentConfig × β)

/-- The edit makes no workload of another name or version. -/
def Edit.KeepsIdentity (f : Edit β) : Prop :=
  ∀ d d' b, f d = .ok (d', b) →
    Resource.nameOf d' = Resource.nameOf d ∧ Resource.versionOf d' = Resource.versionOf d

/-- One attempt: reads a workload, edits it and writes it. -/
def editOnce (name : String) (f : Edit β) (answer : DeploymentConfig → β → γ) : Operation γ := do
  let current ← readWorkload name
  let (next, b) ← given (f current)
  let stored ← writeWorkload next
  return answer stored b

theorem changeOnce_eq (name : String) (change : Edit β) :
    changeOnce name change = editOnce name change fun _ b => b := rfl

/-- The edit that a patch is: the wanted workload put onto the live one, with its source type. -/
def patchEdit (name : String) (desired : DeploymentConfig → Except Failure DeploymentConfig)
    (hook : Option PatchHook) : Edit String := fun current => do
  let wanted ← desired current
  let sourceType ← wantedSourceType wanted
  let next ← prepareUpdate name current wanted hook
  return (next, sourceType)

/-- Results that are computed one after another may be computed at once. -/
theorem Operation.given_bind {α : Type} (x : Except Failure α) (f : α → Except Failure β) :
    given (x >>= f) = (given x >>= fun a => given (f a)) := by
  cases x with
  | error e => rfl
  | ok a => rfl

theorem patchOnce_eq (name : String) (desired : DeploymentConfig → Except Failure DeploymentConfig)
    (hook : Option PatchHook) :
    patchOnce name desired hook = editOnce name (patchEdit name desired hook) Prod.mk := by
  unfold patchOnce editOnce
  refine bind_congr fun current => ?_
  unfold patchEdit
  rw [given_bind, bind_assoc]
  refine bind_congr fun wanted => ?_
  rw [given_bind, bind_assoc]
  refine bind_congr fun sourceType => ?_
  rw [given_bind, bind_assoc]
  rfl

/-- An answer that is made of a result is one more step. -/
theorem Operation.run_bind_pure {α : Type} (x : Operation α) (g : α → β) :
    (x >>= fun a => pure (g a)).run = x.run.bind fun r => .done (r.map g) := by
  show x.run.bind _ = _
  refine congrArg x.run.bind (funext fun r => ?_)
  cases r with
  | error e => rfl
  | ok a => rfl

/-- A commit puts what an edit makes of the workload in its place, which has not changed since it
was read. -/
structure Commit.Applies (c : Commit) (name : String) (f : Edit β) (current : DeploymentConfig)
    (b : β) : Prop where
  read : c.before.cluster.workloads.get name = .ok current
  sent : f current = .ok (c.sent, b)
  stored : c.stored =
    Resource.withVersion (toString c.before.cluster.workloads.nextVersion) c.sent
  written : c.after.cluster.workloads.get name = .ok c.stored

/-- What a run of an edit did: it failed and committed nothing, or it committed once and answers
that. -/
inductive Edited (name : String) (f : Edit β) (answer : DeploymentConfig → β → γ)
    (t : List (Event Unit)) (res : Option (Except Failure γ)) : Prop
  | untouched (h : commits t = [])
      (hres : ∀ r ∈ res, ∃ e, r = .error e ∧
        (e.kind = .notFound ∨ e.kind = .conflict ∨ ∃ d, f d = .error e))
  | committed (c : Commit) (current : DeploymentConfig) (b : β) (h : commits t = [c])
      (happ : c.Applies name f current b) (hres : ∀ r ∈ res, r = .ok (answer c.stored b))

namespace Edited

variable {name : String} {f : Edit β} {answer : DeploymentConfig → β → γ}
  {t t₁ t₂ : List (Event Unit)} {res : Option (Except Failure γ)}

/-- Nothing was committed, and nothing is known of a result. -/
theorem cut (h : commits t = []) : Edited name f answer t none :=
  .untouched h fun _ hr => nomatch hr

/-- Turns without commits before it do not matter. -/
theorem prepend (h₁ : commits t₁ = []) (h₂ : Edited name f answer t₂ res) :
    Edited name f answer (t₁ ++ t₂) res := by
  cases h₂ with
  | untouched h hres => exact .untouched ((commits_append_of_nil h₁).trans h) hres
  | committed c current b h happ hres =>
    exact .committed c current b ((commits_append_of_nil h₁).trans h) happ hres

/-- A success that is passed on is that of the one commit. -/
theorem of_ok {a : γ} (h : Edited name f answer t₁ (some (.ok a))) (hidle : Idle t₂)
    (hres : ∀ r ∈ res, r = .ok a) : Edited name f answer (t₁ ++ t₂) res := by
  cases h with
  | untouched _ herr =>
    obtain ⟨e, he, -⟩ := herr _ rfl
    cases he
  | committed c current b h happ hok =>
    refine .committed c current b ?_ happ fun r hr => (hres r hr).trans (hok _ rfl)
    rw [commits_append, h, hidle.commits_eq_nil]
    rfl

/-- A failure has committed nothing. -/
theorem of_error {e : Failure} (h : Edited name f answer t (some (.error e))) :
    commits t = [] ∧ (e.kind = .notFound ∨ e.kind = .conflict ∨ ∃ d, f d = .error e) := by
  cases h with
  | untouched h herr =>
    obtain ⟨e', he, hkind⟩ := herr _ rfl
    cases he
    exact ⟨h, hkind⟩
  | committed _ _ _ _ _ hok => cases hok _ rfl

end Edited

/-! ## One attempt -/

section

variable {w w' : World} {t : List (Event Unit)}

/-- A read asks for a workload and nothing else. -/
theorem asks_readWorkload {P : Request → Prop} {name : String} (h : P (.getWorkload name)) :
    (readWorkload name).Asks P :=
  .ofCluster ⟨h, fun _ => trivial⟩

/-- A read is answered by what is there at some moment. -/
theorem Run.readWorkload_cases {name : String} {res : Option (Except Failure DeploymentConfig)}
    (h : Run (readWorkload name).run w t res w') :
    (res = none ∧ Idle t) ∨
    ∃ t₁ t₂ w₁,
      t = t₁ ++ .asked () (.getWorkload name) w₁ (w₁.cluster.workloads.get name) w₁ :: t₂ ∧
      Idle t₁ ∧ Idle t₂ ∧ Turns w t₁ w₁ ∧ Turns w₁ t₂ w' ∧
      ∀ r ∈ res, r = (w₁.cluster.workloads.get name).mapError .ofCluster := by
  obtain ⟨r, hrun, hres⟩ := map_cases h
  rcases hrun.question_cases with
    ⟨hnone, hidle⟩ | ⟨t₁, t₂, w₁, w₂, reply, ht, h₁, h₂, hturns, ha, hrest, hr⟩
  · rw [hnone] at hres
    exact .inl ⟨hres, hidle⟩
  · cases ha
    refine .inr ⟨t₁, t₂, w₁, ht, h₁, h₂, hturns, hrest, ?_⟩
    intro r' hr'
    rw [hres] at hr'
    obtain ⟨a, ha, rfl⟩ := Option.map_eq_some_iff.mp hr'
    rw [hr a ha]

/-- An update that is not accepted commits nothing, for want of the workload or for a conflict. -/
theorem Run.writeWorkload_cases {next : DeploymentConfig}
    {res : Option (Except Failure DeploymentConfig)} (h : Run (writeWorkload next).run w t res w') :
    (commits t = [] ∧ ∀ r ∈ res, ∃ e, r = .error e ∧ (e.kind = .notFound ∨ e.kind = .conflict)) ∨
    ∃ (c : Commit) (t₁ : List (Event Unit)), commits t = [c] ∧ c.sent = next ∧ Turns w t₁ c.before ∧
      c.before.cluster.workloads.replace next = .ok (c.stored, c.after.cluster.workloads) ∧
      ∀ r ∈ res, r = .ok c.stored := by
  obtain ⟨r, hrun, hres⟩ := map_cases h
  rcases hrun.question_cases with
    ⟨hnone, hidle⟩ | ⟨t₁, t₂, w₁, w₂, reply, ht, h₁, h₂, hturns, ha, -, hr⟩
  · rw [hnone] at hres
    exact .inl ⟨hidle.commits_eq_nil, fun r hr => by rw [hres] at hr; cases hr⟩
  · have hcommits : commits t = commits [.asked () (.updateWorkload next) w₁ reply w₂] := by
      rw [ht, commits_append, h₁.commits_eq_nil, List.nil_append, ← List.singleton_append,
        commits_append, h₂.commits_eq_nil, List.append_nil]
    have hupdate := World.cluster_of_request ha
    have hmem : ∀ r' ∈ res, r' = reply.mapError .ofCluster := by
      intro r' hr'
      rw [hres] at hr'
      obtain ⟨a, ha, rfl⟩ := Option.map_eq_some_iff.mp hr'
      rw [hr a ha]
    cases reply with
    | error fault =>
      refine .inl ⟨hcommits, ?_⟩
      intro r' hr'
      refine ⟨_, hmem r' hr', ?_⟩
      obtain ⟨-, -, hfault⟩ := Cluster.updateWorkload_eq_error hupdate
      cases fault with
      | notFound => exact .inl rfl
      | conflict => exact .inr rfl
      | _ => rcases hfault with hfault | hfault <;> cases hfault
    | ok stored =>
      exact .inr ⟨⟨w₁, next, stored, w₂⟩, t₁, hcommits, rfl, hturns,
        (Cluster.updateWorkload_eq_ok hupdate).1, hmem⟩

theorem Run.commits_readWorkload {name : String} {res : Option (Except Failure DeploymentConfig)}
    (h : Run (readWorkload name).run w t res w') : commits t = [] :=
  commits_eq_nil (h.forall_asked (asks_readWorkload id))

/-- A read fails only if there is no such workload. -/
theorem Run.kind_of_readWorkload {name : String} {e : Failure}
    (h : Run (readWorkload name).run w t (some (.error e)) w') : e.kind = .notFound := by
  rcases h.readWorkload_cases with ⟨hnone, -⟩ | ⟨_, _, w₁, -, -, -, -, -, hres⟩
  · cases hnone
  · have he := hres _ rfl
    cases hget : w₁.cluster.workloads.get name with
    | ok d => rw [hget] at he; cases he
    | error fault =>
      rw [hget, (Store.get_eq_error_iff.mp hget).1] at he
      cases he
      rfl

/-- What was read was in a sound store, which has only moved on since then. -/
theorem Run.since_readWorkload {name : String} {d : DeploymentConfig} (hw : w.Sound)
    (h : Run (readWorkload name).run w t (some (.ok d)) w') :
    ∃ st₀ : Store DeploymentConfig, st₀.Sound ∧ st₀.get name = .ok d ∧
      Store.Since st₀ w'.cluster.workloads := by
  rcases h.readWorkload_cases with ⟨hnone, -⟩ | ⟨_, _, w₁, -, -, -, h₁, h₂, hres⟩
  · cases hnone
  · refine ⟨w₁.cluster.workloads, (h₁.sound hw).workloads, ?_, h₂.since⟩
    have hok := hres _ rfl
    cases hget : w₁.cluster.workloads.get name with
    | error fault => rw [hget] at hok; cases hok
    | ok d => rw [hget] at hok; cases hok; rfl

/-- What is made of a workload that was read is written in its place or not at all. -/
theorem Run.writeBack {name : String} {f : Edit β} {answer : DeploymentConfig → β → γ}
    {res : Option (Except Failure γ)} {current next : DeploymentConfig} {b : β}
    {st₀ : Store DeploymentConfig} (hf : f.KeepsIdentity) (hst₀ : st₀.Sound)
    (hget : st₀.get name = .ok current) (hsince : Store.Since st₀ w.cluster.workloads)
    (hedit : f current = .ok (next, b))
    (h : Run (writeWorkload next >>= fun stored => pure (answer stored b)).run w t res w') :
    Edited name f answer t res := by
  rw [run_bind_pure] at h
  obtain ⟨r, hwrite, hres⟩ := h.map_cases
  subst hres
  rcases hwrite.writeWorkload_cases with ⟨hnone, hr⟩ | ⟨c, t₃, hone, hsent, hturns, hreplace, hr⟩
  · refine .untouched hnone ?_
    intro r' hr'
    obtain ⟨a, ha, rfl⟩ := Option.map_eq_some_iff.mp hr'
    obtain ⟨e, rfl, he⟩ := hr a ha
    exact ⟨e, rfl, he.imp_right .inl⟩
  · obtain ⟨hname, hversion⟩ := hf current next b hedit
    obtain ⟨hread, hstored, hwritten⟩ := Store.replace_of_since hst₀ hget
      (hsince.trans hturns.since) hname hversion hreplace
    subst hsent
    refine .committed c current b hone ⟨hread, hedit, hstored, hwritten⟩ ?_
    intro r' hr'
    obtain ⟨a, ha, rfl⟩ := Option.map_eq_some_iff.mp hr'
    rw [hr a ha]
    rfl

/-- What has failed commits nothing more. -/
theorem Run.edited_failed {name : String} {f : Edit β} {answer : DeploymentConfig → β → γ}
    {e : Failure} {res : Option (Except Failure γ)}
    (hkind : e.kind = .notFound ∨ e.kind = .conflict ∨ ∃ d, f d = .error e)
    (h : Run (.done (.error e)) w t res w') : Edited name f answer t res :=
  .untouched h.of_done.1.commits_eq_nil fun r hr => ⟨e, h.of_done.2 r hr, hkind⟩

/-- **One attempt**: it commits only what the edit makes of the workload that is stored just before,
because that one still has the version that was read. -/
theorem Run.edited_once {name : String} {f : Edit β} {answer : DeploymentConfig → β → γ}
    {res : Option (Except Failure γ)} (hf : f.KeepsIdentity) (hw : w.Sound)
    (h : Run (editOnce name f answer).run w t res w') : Edited name f answer t res := by
  rcases h.operation_cases with
    ⟨rfl, hread⟩ | ⟨e, rfl, hread⟩ | ⟨current, t₁, t₂, w₂, rfl, hread, hrest⟩
  · exact .cut hread.commits_readWorkload
  · refine .untouched hread.commits_readWorkload ?_
    rintro r ⟨⟩
    exact ⟨e, rfl, .inl hread.kind_of_readWorkload⟩
  · refine Edited.prepend hread.commits_readWorkload ?_
    obtain ⟨st₀, hst₀, hget, hsince⟩ := hread.since_readWorkload hw
    cases hedit : f current with
    | error e =>
      rw [hedit] at hrest
      replace hrest : Run (.done (.error e)) w₂ t₂ res w' := hrest
      exact hrest.edited_failed (.inr (.inr ⟨current, hedit⟩))
    | ok out =>
      obtain ⟨next, b⟩ := out
      rw [hedit] at hrest
      replace hrest : Run (writeWorkload next >>= fun stored => pure (answer stored b)).run
        w₂ t₂ res w' := hrest
      exact hrest.writeBack hf hst₀ hget hsince hedit

/-! ## All attempts -/

variable {name what : String} {f : Edit β} {answer : DeploymentConfig → β → γ}

/-- One attempt and what is done about its failure: a success is passed on. -/
theorem Run.edited_attempt {attempt : Program (Except Failure γ)}
    {next : Except Failure γ → Program (Except Failure γ)} {res : Option (Except Failure γ)}
    (hattempt : ∀ {w w' : World} {t : List (Event Unit)} {res : Option (Except Failure γ)},
      w.Sound → Run attempt w t res w' → Edited name f answer t res)
    (hok : ∀ a, next (.ok a) = .done (.ok a))
    (herror : ∀ {e : Failure} {w₁ : World} {t₂ : List (Event Unit)}, w₁.Sound →
      (e.kind = .notFound ∨ e.kind = .conflict ∨ ∃ d, f d = .error e) →
      Run (next (.error e)) w₁ t₂ res w' → Edited name f answer t₂ res)
    (hw : w.Sound) (h : Run (attempt.bind next) w t res w') : Edited name f answer t res := by
  rcases h.bind_cases with ⟨rfl, hrun⟩ | ⟨r, t₁, t₂, w₁, rfl, hrun, hrest⟩
  · exact hattempt hw hrun
  · cases r with
    | ok a =>
      rw [hok] at hrest
      exact (hattempt hw hrun).of_ok hrest.of_done.1 hrest.of_done.2
    | error e =>
      obtain ⟨hnone, hkind⟩ := (hattempt hw hrun).of_error
      exact .prepend hnone (herror (hrun.turns.sound hw) hkind hrest)

/-- **All attempts**: an attempt that meets another writer has committed nothing, so together they
do what one attempt does. The induction is on the pauses that are left. -/
theorem Run.edited_retryAfter {attempt : Program (Except Failure γ)} {sleep : Nat → Program Unit}
    {kind : String}
    (hattempt : ∀ {w w' : World} {t : List (Event Unit)} {res : Option (Except Failure γ)},
      w.Sound → Run attempt w t res w' → Edited name f answer t res)
    (hsleep : ∀ d, (sleep d).Asks fun r => ¬ r.IsUpdate) {pauses : List Nat} {made : Nat}
    {res : Option (Except Failure γ)} (hw : w.Sound)
    (h : Run (retryAfter sleep kind what attempt made pauses) w t res w') :
    Edited name f answer t res := by
  induction pauses generalizing made w t with
  | nil =>
    refine Run.edited_attempt hattempt ?_ ?_ hw h
    · exact fun _ => rfl
    intro e w₁ t₂ _ hkind hrest
    replace hrest : Run (if e.kind = .conflict then .done (.error (.conflict kind what made))
      else .done (.error e)) w₁ t₂ res w' := hrest
    by_cases he : e.kind = .conflict
    · rw [if_pos he] at hrest
      exact hrest.edited_failed (.inr (.inl rfl))
    · rw [if_neg he] at hrest
      exact hrest.edited_failed hkind
  | cons pause pauses ih =>
    refine Run.edited_attempt hattempt ?_ ?_ hw h
    · exact fun _ => rfl
    intro e w₁ t₂ hw₁ hkind hrest
    replace hrest : Run (if e.kind = .conflict
      then (sleep pause).bind fun _ => retryAfter sleep kind what attempt (made + 1) pauses
      else .done (.error e)) w₁ t₂ res w' := hrest
    by_cases he : e.kind = .conflict
    · rw [if_pos he] at hrest
      rcases hrest.bind_cases with ⟨rfl, hpause⟩ | ⟨_, t₃, t₄, w₂, rfl, hpause, hagain⟩
      · exact .cut (commits_eq_nil (hpause.forall_asked (hsleep pause)))
      · refine .prepend (commits_eq_nil (hpause.forall_asked (hsleep pause))) ?_
        exact ih (hpause.turns.sound hw₁) hagain
    · rw [if_neg he] at hrest
      exact hrest.edited_failed hkind

/-- The pauses of an operation ask for the time and for nothing else. -/
theorem asks_pause {P : Request → Prop} (hnow : P .now) (hsleep : ∀ time, P (.sleepUntil time))
    (d : Nat) : (Program.bind (Operation.sleep d).run fun _ => .done ()).Asks P :=
  Program.Asks.bind (Operation.Asks.bind (.ask hnow) fun _ => .ask (hsleep _)) fun _ => trivial

/-- Attempts and pauses ask what one attempt and one pause ask. -/
theorem asks_retrying {P : Request → Prop} {s : Settings} {x : Operation γ} (hx : x.Asks P)
    (hnow : P .now) (hsleep : ∀ time, P (.sleepUntil time)) : (retrying s what x).Asks P := by
  show Program.Asks P (retryAfter _ _ _ _ _ _)
  generalize 1 = made
  induction s.backoff.reset.delays generalizing made with
  | nil =>
    refine Program.Asks.bind hx fun r => ?_
    cases r with
    | ok a => trivial
    | error e =>
      show Program.Asks P (if e.kind = .conflict then .done _ else .done _)
      split
      · trivial
      · trivial
  | cons pause pauses ih =>
    refine Program.Asks.bind hx fun r => ?_
    cases r with
    | ok a => trivial
    | error e =>
      show Program.Asks P (if e.kind = .conflict then Program.bind _ _ else .done _)
      split
      · exact Program.Asks.bind (asks_pause hnow hsleep pause) fun _ => ih (made + 1)
      · trivial

/-- A write that is tried again does what one attempt does. -/
theorem Run.edited_retrying {s : Settings} {x : Operation γ} {res : Option (Except Failure γ)}
    (hattempt : ∀ {w w' : World} {t : List (Event Unit)} {res : Option (Except Failure γ)},
      w.Sound → Run x.run w t res w' → Edited name f answer t res)
    (hw : w.Sound) (h : Run (retrying s what x).run w t res w') : Edited name f answer t res :=
  Run.edited_retryAfter hattempt (asks_pause id fun _ => id) hw h

end

end InnerLoop
