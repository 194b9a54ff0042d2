import InnerLoop.Operation.Push
import InnerLoop.Proofs.Edit
import InnerLoop.Proofs.Run
import InnerLoop.Proofs.Transcript
import InnerLoop.Proofs.Transfers

/-!
# Commands in order

Some commands are to be run in pods one after another, and no more of them once one has failed. What
is recorded of that is told by the commands that ended, with what they read, and by the troubles
that were met.

- `begun`, `ended`: the troubles that the commands of a transcript met, and the commands that came
  to their end.
- `InOrder`: what can be recorded of a plan, and whether all of it was done well.
- `InOrder.isPrefix`, `InOrder.well_before`, `InOrder.ended_at`, `InOrder.done_iff`: what follows
  for every plan.
- `Transcript.sendArchive_cases`, `Transcript.pushFiles_cases`: how far a command can get that is
  fed an archive.
- `Transcript.runsOne_exec`, `Transcript.runsOne_sendArchive`: one command at a time.
-/

namespace InnerLoop

open Operation

/-! ## What is recorded -/

/-- The trouble that a command was to meet, if one was begun. -/
def Exchange.begun? : Exchange → Option (Option ExecTrouble)
  | ⟨.beginExec _, .ok trouble⟩ => some trouble
  | _ => none

/-- The command that came to its end, if one did. -/
def Exchange.ended? : Exchange → Option ExecCall
  | ⟨.endExec call, _⟩ => some call
  | _ => none

/-- The troubles that commands met, in the order in which they were begun. -/
def begun (d : List Exchange) : List (Option ExecTrouble) := d.filterMap Exchange.begun?

/-- The commands that came to their end, one after another. -/
def ended (d : List Exchange) : List ExecCall := d.filterMap Exchange.ended?

@[simp] theorem begun_append (d₁ d₂ : List Exchange) : begun (d₁ ++ d₂) = begun d₁ ++ begun d₂ :=
  List.filterMap_append

@[simp] theorem ended_append (d₁ d₂ : List Exchange) : ended (d₁ ++ d₂) = ended d₁ ++ ended d₂ :=
  List.filterMap_append

/-- Beginning or ending a command. -/
def Request.IsCommand : Request → Prop
  | .beginExec _ | .endExec _ => True
  | _ => False

/-- No command was begun or ended. -/
def Quiescent (d : List Exchange) : Prop := begun d = [] ∧ ended d = []

theorem Quiescent.append {d₁ d₂ : List Exchange} (h₁ : Quiescent d₁) (h₂ : Quiescent d₂) :
    Quiescent (d₁ ++ d₂) := by
  constructor
  · rw [begun_append, h₁.1, h₂.1, List.nil_append]
  · rw [ended_append, h₁.2, h₂.2, List.nil_append]

theorem quiescent_of_forall {d : List Exchange} (h : ∀ e ∈ d, ¬ e.request.IsCommand) :
    Quiescent d := by
  have hnone : ∀ e ∈ d, e.begun? = none ∧ e.ended? = none := by
    intro e he
    have hno := h e he
    obtain ⟨r, reply⟩ := e
    cases r with
    | beginExec pod => exact absurd trivial hno
    | endExec call => exact absurd trivial hno
    | _ => exact ⟨rfl, rfl⟩
  exact ⟨List.filterMap_eq_nil_iff.mpr fun e he => (hnone e he).1,
    List.filterMap_eq_nil_iff.mpr fun e he => (hnone e he).2⟩

/-- What a transcript asked is what its program can ask. -/
theorem Transcript.forall_asked {α : Type} {P : Request → Prop} {p : Program α}
    {d : List Exchange} {res : Option α} (h : Transcript p d res) (hp : p.Asks P) :
    ∀ e ∈ d, P e.request := by
  induction h with
  | stop => exact fun _ he => nomatch he
  | done => exact fun _ he => nomatch he
  | asked reply _ ih =>
    intro e he
    rcases List.mem_cons.mp he with rfl | he
    · exact hp.1
    · exact ih (hp.2 reply) e he

theorem Transcript.quiescent {α : Type} {p : Program α} {d : List Exchange} {res : Option α}
    (h : Transcript p d res) (hp : p.Asks fun r => ¬ r.IsCommand) : Quiescent d :=
  quiescent_of_forall (h.forall_asked hp)

/-! ## Plans -/

/-- A command that is to be run. -/
structure Planned where
  call : ExecCall
  /-- What it may read if it is done well. -/
  reads : List UInt8 → Prop
  /-- What else may become of it, by the trouble that it met and what it read. -/
  fails : Option ExecTrouble → List UInt8 → Prop

/-- A command that is not fed anything, and fails only if it meets trouble. -/
def Planned.alone (call : ExecCall) : Planned where
  call
  reads input := input = []
  fails trouble input := trouble ≠ none ∧ input = []

/-- The command as it is recorded when it has read something. -/
def Planned.after (p : Planned) (input : List UInt8) : ExecCall := { p.call with stdin := input }

/-- What can be recorded of commands that are run in order: the troubles that they met, the commands
that ended, and whether all that was planned was done well. -/
inductive InOrder : List Planned → List (Option ExecTrouble) → List ExecCall → Bool → Prop
  | finished : InOrder [] [] [] true
  /-- The first one did not come to its end. -/
  | stopped (p : Planned) (plan : List Planned) (troubles : List (Option ExecTrouble)) :
      InOrder (p :: plan) troubles [] false
  /-- The first one was not done well. Only what others come after can fail without trouble. -/
  | failed (p : Planned) (plan : List Planned) (trouble : Option ExecTrouble) (input : List UInt8)
      (hfails : p.fails trouble input) (hlast : plan = [] → trouble ≠ none) :
      InOrder (p :: plan) [trouble] [p.after input] false
  | next (p : Planned) (input : List UInt8) (hreads : p.reads input) {plan : List Planned}
      {troubles : List (Option ExecTrouble)} {calls : List ExecCall} {well : Bool}
      (rest : InOrder plan troubles calls well) :
      InOrder (p :: plan) (none :: troubles) (p.after input :: calls) well

/-- A command but for what it read. -/
def ExecCall.unread (c : ExecCall) : ExecCall := { c with stdin := [] }

namespace InOrder

variable {plan : List Planned} {troubles : List (Option ExecTrouble)} {calls : List ExecCall}
  {well : Bool}

/-- The commands that ended are the first ones of the plan. -/
theorem isPrefix (h : InOrder plan troubles calls well) :
    calls.map ExecCall.unread <+: plan.map fun p => p.call.unread := by
  induction h with
  | finished => exact List.prefix_rfl
  | stopped => exact List.nil_prefix
  | failed p plan trouble input _ _ => exact ⟨_, rfl⟩
  | next p input _ _ ih => exact List.cons_prefix_cons.mpr ⟨rfl, ih⟩

/-- A command that another one came after had met no trouble. -/
theorem well_before (h : InOrder plan troubles calls well) {i : Nat} (hi : i + 1 < calls.length) :
    troubles[i]? = some none := by
  induction h generalizing i with
  | finished => exact absurd hi (Nat.not_lt_zero _)
  | stopped => exact absurd hi (Nat.not_lt_zero _)
  | failed => exact absurd (Nat.lt_of_succ_lt_succ hi) (Nat.not_lt_zero _)
  | next p input _ _ ih =>
    cases i with
    | zero => rfl
    | succ i => exact ih (Nat.lt_of_succ_lt_succ hi)

/-- A command that ended was done well, or it was not and is the last one. -/
theorem ended_at (h : InOrder plan troubles calls well) {i : Nat} {c : ExecCall}
    (hc : calls[i]? = some c) :
    ∃ p input trouble, plan[i]? = some p ∧ c = p.after input ∧ troubles[i]? = some trouble ∧
      (p.reads input ∧ trouble = none ∨ p.fails trouble input ∧ calls.length = i + 1) := by
  induction h generalizing i with
  | finished => cases hc
  | stopped => cases hc
  | failed p plan trouble input hfails _ =>
    cases i with
    | zero => exact ⟨p, input, trouble, rfl, (Option.some.inj hc).symm, rfl, .inr ⟨hfails, rfl⟩⟩
    | succ i => cases hc
  | next p input hreads _ ih =>
    cases i with
    | zero => exact ⟨p, input, none, rfl, (Option.some.inj hc).symm, rfl, .inl ⟨hreads, rfl⟩⟩
    | succ i =>
      obtain ⟨q, input', trouble, hq, hafter, htrouble, hends⟩ := ih hc
      refine ⟨q, input', trouble, hq, hafter, htrouble, hends.imp_right fun hfails => ?_⟩
      exact ⟨hfails.1, congrArg (· + 1) hfails.2⟩

/-- All was done well exactly if all of the plan ended and nothing met trouble. -/
theorem done_iff (h : InOrder plan troubles calls well) :
    well = true ↔ calls.length = plan.length ∧ ∀ x ∈ troubles, x = none := by
  induction h with
  | finished => exact ⟨fun _ => ⟨rfl, fun _ hx => nomatch hx⟩, fun _ => rfl⟩
  | stopped => exact ⟨fun h => (nomatch h), fun h => nomatch h.1⟩
  | failed p plan trouble input _ hlast =>
    refine ⟨fun h => (nomatch h), fun h => ?_⟩
    have hnil : plan = [] := List.length_eq_zero_iff.mp (Nat.succ.inj h.1).symm
    exact absurd (h.2 trouble (List.mem_singleton_self _)) (hlast hnil)
  | next p input _ _ ih =>
    rw [ih, List.forall_mem_cons]
    constructor
    · rintro ⟨hlength, hnone⟩
      exact ⟨congrArg (· + 1) hlength, rfl, hnone⟩
    · rintro ⟨hlength, -, hnone⟩
      exact ⟨Nat.succ.inj hlength, hnone⟩

end InOrder

/-! ## One command -/

/-- What one command leaves behind, or less than that, and how it goes on from there. -/
inductive RunsOne {ε α : Type} (p : Planned) :
    List (Option ExecTrouble) → List ExecCall → Option (Except ε α) → Prop
  | stopped (troubles : List (Option ExecTrouble)) {res : Option (Except ε α)}
      (hres : ∀ a, res ≠ some (.ok a)) : RunsOne p troubles [] res
  | failed (trouble : Option ExecTrouble) (input : List UInt8) (hfails : p.fails trouble input)
      {res : Option (Except ε α)} (hres : ∀ a, res ≠ some (.ok a)) :
      RunsOne p [trouble] [p.after input] res
  | well (input : List UInt8) (hreads : p.reads input) {res : Option (Except ε α)}
      (hres : ∀ e, res ≠ some (.error e)) : RunsOne p [none] [p.after input] res

namespace RunsOne

variable {ε α : Type} {p : Planned} {troubles : List (Option ExecTrouble)} {calls : List ExecCall}
  {res : Option (Except ε α)}

/-- It does not matter what is made of the results as long as successes stay successes. -/
theorem map {ε' β : Type} {g : Except ε α → Except ε' β} (h : RunsOne p troubles calls res)
    (hok : ∀ a, ∃ b, g (.ok a) = .ok b) (herror : ∀ e, ∃ e', g (.error e) = .error e') :
    RunsOne p troubles calls (res.map g) := by
  have hstays : (∀ a, res ≠ some (.ok a)) → ∀ b, res.map g ≠ some (.ok b) := by
    intro hres b heq
    obtain ⟨r, rfl, hr⟩ := Option.map_eq_some_iff.mp heq
    cases r with
    | ok a => exact hres a rfl
    | error e =>
      obtain ⟨e', he'⟩ := herror e
      exact absurd (he'.symm.trans hr) (nomatch ·)
  cases h with
  | stopped troubles hres => exact .stopped troubles (hstays hres)
  | failed trouble input hfails hres => exact .failed trouble input hfails (hstays hres)
  | well input hreads hres =>
    refine .well input hreads fun e heq => ?_
    obtain ⟨r, rfl, hr⟩ := Option.map_eq_some_iff.mp heq
    cases r with
    | error e => exact hres e rfl
    | ok a =>
      obtain ⟨b, hb⟩ := hok a
      exact absurd (hb.symm.trans hr) (nomatch ·)

/-- More may be known of what a command read. -/
theorem mono {q : Planned} (h : RunsOne p troubles calls res) (hcall : p.call = q.call)
    (hreads : ∀ input, p.reads input → q.reads input)
    (hfails : ∀ trouble input, p.fails trouble input → q.fails trouble input) :
    RunsOne q troubles calls res := by
  have hafter : ∀ input, p.after input = q.after input := by
    intro input
    unfold Planned.after
    rw [hcall]
  cases h with
  | stopped troubles hres => exact .stopped troubles hres
  | failed trouble input h hres =>
    rw [hafter]
    exact .failed trouble input (hfails _ _ h) hres
  | well input h hres =>
    rw [hafter]
    exact .well input (hreads _ h) hres

theorem length_le (h : RunsOne p troubles calls res) : calls.length ≤ 1 := by
  cases h with
  | stopped => exact Nat.zero_le 1
  | failed => exact Nat.le_refl 1
  | well => exact Nat.le_refl 1

/-- A command without any of the next one. -/
theorem inOrder (h : RunsOne p troubles calls res) (q : Planned) (plan : List Planned) :
    InOrder (p :: q :: plan) troubles calls false := by
  cases h with
  | stopped troubles _ => exact .stopped p _ troubles
  | failed trouble input hfails _ => exact .failed p _ trouble input hfails fun h => nomatch h
  | well input hreads _ => exact .next p input hreads (.stopped q plan [])

/-- A command that was done well, and the rest of the plan. -/
theorem append {a : α} (h : RunsOne p troubles calls (some (.ok a) : Option (Except ε α)))
    {plan : List Planned} {troubles' : List (Option ExecTrouble)} {calls' : List ExecCall}
    {well : Bool} (rest : InOrder plan troubles' calls' well) :
    InOrder (p :: plan) (troubles ++ troubles') (calls ++ calls') well := by
  cases h with
  | stopped troubles hres => exact absurd rfl (hres a)
  | failed trouble input hfails hres => exact absurd rfl (hres a)
  | well input hreads _ => exact .next p input hreads rest

/-- The last command of a plan: it was done well exactly if that is the result. -/
theorem last {call : ExecCall} (h : RunsOne (.alone call) troubles calls res) :
    ∃ well, InOrder [.alone call] troubles calls well ∧
      ∀ r ∈ res, (∃ a, r = .ok a) ↔ well = true := by
  have hfails : (∀ a, res ≠ some (.ok a)) → ∀ r ∈ res, (∃ a, r = .ok a) ↔ false = true := by
    intro hres r hr
    refine ⟨?_, fun h => nomatch h⟩
    rintro ⟨a, rfl⟩
    exact absurd hr (hres a)
  cases h with
  | stopped troubles hres => exact ⟨false, .stopped _ [] troubles, hfails hres⟩
  | failed trouble input hmet hres =>
    exact ⟨false, .failed _ [] trouble input hmet fun _ => hmet.1, hfails hres⟩
  | well input hreads hres =>
    refine ⟨true, .next _ input hreads .finished, fun r hr => ⟨fun _ => rfl, fun _ => ?_⟩⟩
    cases r with
    | ok a => exact ⟨a, rfl⟩
    | error e => exact absurd hr (hres e)

end RunsOne

/-! ## Running a command -/

/-- How a command comes to its end: at once, or a while after it stopped reading. -/
def endCommand {α : Type} (lingers : Bool) (call : ExecCall) (a : α) : Program α :=
  match lingers with
  | true => .ask .now fun now => .ask (.sleepUntil (now + hangUpLinger)) fun _ =>
      .ask (.endExec call) fun _ => .done a
  | false => .ask (.endExec call) fun _ => .done a

theorem exec_eq (call : ExecCall) :
    exec call = .ask (.beginExec call.pod) fun
      | .error fault => .done (.error fault)
      | .ok none => endCommand false call (.ok {})
      | .ok (some trouble) =>
        endCommand trouble.hangUp (if trouble.hangUp then { call with stdin := [] } else call)
          (.error (.exec trouble.message)) := by
  refine congrArg (Program.ask (.beginExec call.pod)) (funext fun reply => ?_)
  rcases reply with fault | _ | ⟨message, hangUp⟩
  · rfl
  · rfl
  · cases hangUp with
    | true => rfl
    | false => rfl

/-- The command that unpacks the archive of a manifest, when it has read something. -/
def unpackCall (m : Manifest) (pod target : String) (input : List UInt8) : ExecCall :=
  { pod, command := m.unpackCommand target, stdin := input }

/-- How sending an archive goes on once the transfer is settled. A command that is given up before
it ends leaves no trace. -/
def afterTransfer (m : Manifest) (pod target : String) (trouble : Option ExecTrouble) {w : Writing}
    (s : Settlement w) : Program (Except Failure Unit) :=
  match s.now.exit with
  | some _ => endCommand (hangsUp trouble) (unpackCall m pod target s.now.received) s.result
  | none => .done s.result

/-- The archive of a manifest is sent once a command is there that takes it. -/
theorem sendArchive_eq (m : Manifest) (pod target : String) :
    (sendArchive m pod target).run = .ask (.beginExec pod) fun
      | .error fault => .done (.error (.ofCluster fault))
      | .ok trouble => .ask (.readFiles m) fun w => .ask .pause fun _ =>
        .ask (.transfer trouble w) (afterTransfer m pod target trouble) := by
  refine congrArg (Program.ask (.beginExec pod)) (funext fun reply => ?_)
  rcases reply with fault | trouble
  · rfl
  refine congrArg (Program.ask (.readFiles m)) (funext fun w => ?_)
  refine congrArg (Program.ask .pause) (funext fun _ => ?_)
  refine congrArg (Program.ask (.transfer trouble w)) (funext fun s => ?_)
  obtain ⟨_, ⟨_, _, _, _, _, exit⟩, _, _, _, _⟩ := s
  unfold afterTransfer
  cases exit with
  | none => rfl
  | some e =>
    cases hangsUp trouble with
    | true => rfl
    | false => rfl

/-- The command that unpacks the archive of a manifest. If it is done well, it has read all of an
archive that could be made. If not, there need not have been trouble; it has read all that was
written, unless it did not read at all. -/
def unpacking (d : List Exchange) (m : Manifest) (pod target : String) : Planned where
  call := unpackCall m pod target []
  reads input := ∃ w : Writing, ⟨.readFiles m, w⟩ ∈ d ∧ w.failure = none ∧ input = w.bytes
  fails trouble input :=
    ∃ w : Writing, ⟨.readFiles m, w⟩ ∈ d ∧ input = if hangsUp trouble then [] else w.bytes

/-- What a push of a manifest returns, by how sending its archive ended. -/
def Manifest.pushed (m : Manifest) (pod : String) (r : Except Failure Unit) :
    Except Failure Manifest :=
  (Failure.within (.pushToPod pod) r).map fun _ => m

/-- All transfers went as commands in memory make them. -/
def TransfersObey (d : List Exchange) : Prop :=
  ∀ trouble (w : Writing) (s : Settlement w), ⟨.transfer trouble w, s⟩ ∈ d → s.Obeys trouble

theorem TransfersObey.mono {d d' : List Exchange} (h : TransfersObey d') (hsub : d ⊆ d') :
    TransfersObey d := fun trouble w s hs => h trouble w s (hsub hs)

/-- What sending an archive was answered once it was known what to send: the trouble, the writing
and how the transfer was settled. -/
structure Sent (m : Manifest) (pod : String) (d : List Exchange) (trouble : Option ExecTrouble)
    {w : Writing} (s : Settlement w) : Prop where
  begun_mem : ⟨.beginExec pod, .ok trouble⟩ ∈ d
  writing_mem : ⟨.readFiles m, w⟩ ∈ d
  settled_mem : ⟨.transfer trouble w, s⟩ ∈ d

theorem Sent.mono {m : Manifest} {pod : String} {d d' : List Exchange}
    {trouble : Option ExecTrouble} {w : Writing} {s : Settlement w} (h : Sent m pod d trouble s)
    (hsub : d ⊆ d') : Sent m pod d' trouble s :=
  ⟨hsub h.begun_mem, hsub h.writing_mem, hsub h.settled_mem⟩

namespace Transcript

variable {d : List Exchange}

/-- A command ends, or is cut off before. -/
theorem endCommand_cases {α : Type} {lingers : Bool} {call : ExecCall} {a : α} {res : Option α}
    (h : Transcript (endCommand lingers call a) d res) :
    (ended d = [] ∧ res = none) ∨ (begun d = [] ∧ ended d = [call] ∧ ∀ r ∈ res, r = a) := by
  have hend : ∀ {d : List Exchange}, Transcript (.ask (.endExec call) fun _ => .done a) d res →
      (ended d = [] ∧ res = none) ∨ (begun d = [] ∧ ended d = [call] ∧ ∀ r ∈ res, r = a) := by
    intro d h
    rcases ask_cases h with ⟨rfl, rfl⟩ | ⟨_, d₁, rfl, h₁⟩
    · exact .inl ⟨rfl, rfl⟩
    · obtain ⟨rfl, hres⟩ := h₁.of_done
      exact .inr ⟨rfl, rfl, hres⟩
  cases lingers with
  | false => exact hend h
  | true =>
    rcases ask_cases h with ⟨rfl, rfl⟩ | ⟨now, d₁, rfl, h₁⟩
    · exact .inl ⟨rfl, rfl⟩
    rcases ask_cases h₁ with ⟨rfl, rfl⟩ | ⟨_, d₂, rfl, h₂⟩
    · exact .inl ⟨rfl, rfl⟩
    · show (ended d₂ = [] ∧ res = none) ∨ (begun d₂ = [] ∧ ended d₂ = [call] ∧ ∀ r ∈ res, r = a)
      exact hend h₂

/-- The end of a command that was not done well. -/
theorem runsOne_failed {ε α : Type} {p : Planned} {trouble : Option ExecTrouble} {lingers : Bool}
    {input : List UInt8} {e : ε} {res : Option (Except ε α)} (hfails : p.fails trouble input)
    (h : Transcript (endCommand lingers (p.after input) (.error e)) d res) :
    RunsOne p (trouble :: begun d) (ended d) res := by
  rcases h.endCommand_cases with ⟨hended, rfl⟩ | ⟨hbegun, hended, hres⟩
  · rw [hended]
    exact .stopped _ fun _ h => nomatch h
  · rw [hbegun, hended]
    exact .failed trouble input hfails fun a ha => nomatch hres _ ha

/-- The end of a command that was done well. -/
theorem runsOne_well {ε α : Type} {p : Planned} {lingers : Bool} {input : List UInt8} {a : α}
    {res : Option (Except ε α)} (hreads : p.reads input)
    (h : Transcript (endCommand lingers (p.after input) (.ok a)) d res) :
    RunsOne p (none :: begun d) (ended d) res := by
  rcases h.endCommand_cases with ⟨hended, rfl⟩ | ⟨hbegun, hended, hres⟩
  · rw [hended]
    exact .stopped _ fun _ h => nomatch h
  · rw [hbegun, hended]
    exact .well input hreads fun e he => nomatch hres _ he

/-- A command that is not fed anything. -/
theorem runsOne_exec {call : ExecCall} {res : Option (Except ClusterFault ExecOutput)}
    (hcall : call.stdin = []) (h : Transcript (exec call) d res) :
    RunsOne (.alone call) (begun d) (ended d) res := by
  have hafter : { call with stdin := [] } = call := by rw [← hcall]
  rw [exec_eq] at h
  rcases ask_cases h with ⟨rfl, rfl⟩ | ⟨reply, d₁, rfl, h₁⟩
  · exact .stopped [] fun _ h => nomatch h
  rcases reply with fault | _ | trouble
  · obtain ⟨rfl, hres⟩ := of_done h₁
    exact .stopped [] fun a ha => nomatch hres _ ha
  · rw [← hafter] at h₁
    exact runsOne_well (p := .alone call) rfl h₁
  · dsimp only at h₁
    rw [hafter, ite_self, ← hafter] at h₁
    exact runsOne_failed (p := .alone call) ⟨nofun, rfl⟩ h₁

/-- Sending an archive is cut off before the transfer is settled, or the command cannot be begun, or
the transfer is settled, and the command came to its end before that or is given up. -/
theorem sendArchive_cases {m : Manifest} {pod target : String} {res : Option (Except Failure Unit)}
    (h : Transcript (sendArchive m pod target).run d res) :
    (ended d = [] ∧ res = none) ∨
      (∃ fault, ⟨.beginExec pod, .error fault⟩ ∈ d ∧ ended d = [] ∧
        ∀ r ∈ res, r = .error (.ofCluster fault)) ∨
      ∃ trouble, ∃ (w : Writing) (s : Settlement w) (d₁ : List Exchange), Sent m pod d trouble s ∧
        begun d = trouble :: begun d₁ ∧ ended d = ended d₁ ∧
        Transcript (afterTransfer m pod target trouble s) d₁ res := by
  rw [sendArchive_eq] at h
  rcases ask_cases h with ⟨rfl, rfl⟩ | ⟨reply, d₁, rfl, h₁⟩
  · exact .inl ⟨rfl, rfl⟩
  rcases reply with fault | trouble
  · obtain ⟨rfl, hres⟩ := of_done h₁
    exact .inr (.inl ⟨fault, List.mem_cons_self, rfl, hres⟩)
  rcases ask_cases h₁ with ⟨rfl, rfl⟩ | ⟨w, d₂, rfl, h₂⟩
  · exact .inl ⟨rfl, rfl⟩
  rcases ask_cases h₂ with ⟨rfl, rfl⟩ | ⟨_, d₃, rfl, h₃⟩
  · exact .inl ⟨rfl, rfl⟩
  rcases ask_cases h₃ with ⟨rfl, rfl⟩ | ⟨s, d₄, rfl, h₄⟩
  · exact .inl ⟨rfl, rfl⟩
  refine .inr (.inr ⟨trouble, w, s, d₄, ⟨List.mem_cons_self, ?_, ?_⟩, rfl, rfl, h₄⟩)
  · exact List.mem_cons_of_mem _ List.mem_cons_self
  · exact List.mem_cons_of_mem _ (List.mem_cons_of_mem _ (List.mem_cons_of_mem _
      List.mem_cons_self))

/-- Once a transfer is settled, the command is recorded that came to its end, if it did. -/
theorem afterTransfer_done {m : Manifest} {pod target : String} {trouble : Option ExecTrouble}
    {w : Writing} {s : Settlement w} {r : Except Failure Unit}
    (h : Transcript (afterTransfer m pod target trouble s) d (some r)) :
    ended d = s.now.exit.toList.map (fun _ => unpackCall m pod target s.now.received) ∧
      r = s.result := by
  unfold afterTransfer at h
  cases hexit : s.now.exit with
  | none =>
    rw [hexit] at h
    obtain ⟨rfl, hres⟩ := h.of_done
    exact ⟨rfl, hres r rfl⟩
  | some e =>
    rw [hexit] at h
    rcases h.endCommand_cases with ⟨-, hnone⟩ | ⟨-, hlast, hres⟩
    · cases hnone
    · exact ⟨hlast, hres r rfl⟩

/-- A command that is fed an archive. -/
theorem runsOne_sendArchive {m : Manifest} {pod target : String}
    {res : Option (Except Failure Unit)} (hobey : TransfersObey d) (h : Transcript (sendArchive m pod target).run d res) :
    RunsOne (unpacking d m pod target) (begun d) (ended d) res := by
  rcases h.sendArchive_cases with
    ⟨hended, rfl⟩ | ⟨fault, -, hended, hres⟩ | ⟨trouble, w, s, d₁, hsent, hbegun, hended, h₁⟩
  · rw [hended]
    exact .stopped _ fun _ h => nomatch h
  · rw [hended]
    exact .stopped _ fun a ha => nomatch hres _ ha
  rw [hbegun, hended]
  have hs : s.Obeys trouble := hobey trouble w s hsent.settled_mem
  unfold afterTransfer at h₁
  cases hexit : s.now.exit with
  | none =>
    rw [hexit] at h₁
    obtain ⟨rfl, hres⟩ := of_done h₁
    refine .stopped _ fun a ha => ?_
    -- Nothing is settled well before the command has ended.
    have hok := s.of_ok (hres _ ha).symm
    exact absurd (hexit.symm.trans hok.2) (nomatch ·)
  | some e =>
    rw [hexit] at h₁
    cases hresult : s.result with
    | error failure =>
      rw [hresult] at h₁
      have hread := hs.received_eq (Option.isSome_iff_exists.mpr ⟨e, hexit⟩)
      exact runsOne_failed (p := unpacking d m pod target) ⟨w, hsent.writing_mem, hread⟩ h₁
    | ok _ =>
      rw [hresult] at h₁
      obtain ⟨hwell, hdone⟩ := s.of_ok hresult
      have hnone : trouble = none := by
        have hexits := hs.exit_eq _ hdone
        cases trouble with
        | none => rfl
        | some trouble => cases hexits
      subst hnone
      refine runsOne_well (p := unpacking d m pod target) ⟨w, hsent.writing_mem, hwell, ?_⟩ h₁
      exact hs.patient rfl (Option.isSome_iff_exists.mpr ⟨_, hdone⟩)

/-- Pushing files is over before anything is sent, because it is not known what, or it is known. -/
theorem pushFiles_cases {root : Path} {pod target : String} {changed : List Path}
    {res : Option (Except Failure Manifest)}
    (h : Transcript (pushFiles root pod target changed).run d res) :
    (Quiescent d ∧
        ∀ r ∈ res, ∃ e, ⟨.buildManifest root changed, .error e⟩ ∈ d ∧ r = .error e) ∨
      ∃ m d₁ sent, ⟨.buildManifest root changed, .ok m⟩ ∈ d ∧ d₁ ⊆ d ∧ begun d = begun d₁ ∧
        ended d = ended d₁ ∧ Transcript (sendArchive m pod target).run d₁ sent ∧
        res = sent.map (m.pushed pod) := by
  rcases ask_bind_cases h with ⟨rfl, rfl⟩ | ⟨built, d₁, rfl, h₁⟩
  · exact .inl ⟨⟨rfl, rfl⟩, fun _ h => nomatch h⟩
  rcases ask_bind_cases h₁ with ⟨rfl, rfl⟩ | ⟨_, d₂, rfl, h₂⟩
  · exact .inl ⟨⟨rfl, rfl⟩, fun _ h => nomatch h⟩
  rcases given_bind_cases h₂ with ⟨e, rfl, rfl, hres⟩ | ⟨m, rfl, h₃⟩
  · exact .inl ⟨⟨rfl, rfl⟩, fun r hr => ⟨e, List.mem_cons_self, hres r hr⟩⟩
  rw [Operation.run_bind_pure] at h₃
  obtain ⟨r, hwithin, rfl⟩ := h₃.map_cases
  obtain ⟨sent, hsend, rfl⟩ := hwithin.map_cases
  refine .inr ⟨m, d₂, sent, List.mem_cons_self, ?_, rfl, rfl, hsend, Option.map_map _ _ _⟩
  exact List.subset_cons_of_subset _ (List.subset_cons_self _ _)

end Transcript

end InnerLoop
