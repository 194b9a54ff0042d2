import InnerLoop.Proofs.Alongside
import InnerLoop.Proofs.Edit
import InnerLoop.Proofs.Play
import InnerLoop.Proofs.WatchRounds
import Mathlib.Data.List.Basic

/-!
# Pushes

A push runs three commands in the pod that it waited for: one makes the directory for the sources,
one unpacks them there, and one builds them and restarts the application.

- `pushPlan`: the three of them.
- `Transcript.push_inOrder`: whatever a push is answered, it runs them in order.
- `push_runs_in_order`: **what is recorded of a push**, in whatever surroundings.
-/

namespace InnerLoop

open Operation

/-- The command that makes the directory that sources are pushed into. -/
def making (pod target : String) : Planned :=
  .alone { pod, command := ["mkdir", "-p", target] }

/-- The command that restarts the application. -/
def restarting (pod : String) : Planned := .alone { pod, command := restartCommand }

/-- What a push runs, in view of what it was answered. -/
def pushPlan (d : List Exchange) (m : Manifest) (pod target : String) : List Planned :=
  [making pod target, unpacking d m pod target, restarting pod]

/-- Where the first command of a push runs, and on what directory, is what the push was told. -/
def ToldWhere (d : List Exchange) (name pod target : String) : Prop :=
  ∃ job deadline p w, ⟨.joinPodWait job deadline, .satisfied p⟩ ∈ d ∧ pod = Resource.nameOf p ∧
    ⟨.getWorkload name, .ok w⟩ ∈ d ∧ w.sourceTarget name = .ok target

/-- A step of which only the success is passed on, with a value that was known before. -/
theorem eq_of_map_ok {α β : Type} {res : Option (Except Failure α)} {a m : β}
    (h : res.map (fun r => r.map fun _ => m) = some (.ok a)) : a = m := by
  obtain ⟨r, -, hr⟩ := Option.map_eq_some_iff.mp h
  cases r with
  | ok _ => exact (Except.ok.inj hr).symm
  | error e => cases hr

theorem asks_waitForRunningPod {s : Settings} {selector : String} :
    (waitForRunningPod s selector).Asks fun r => ¬ r.IsCommand :=
  (Asks.ask id).bind fun _ => (Asks.ask id).bind fun _ => (Asks.ask id).bind fun _ =>
    (Asks.ask id).bind fun _ => .given _

theorem runsOne_unpacking_mono {ε α : Type} {d d' : List Exchange} {m : Manifest}
    {pod target : String} {troubles : List (Option ExecTrouble)} {calls : List ExecCall}
    {res : Option (Except ε α)} (h : RunsOne (unpacking d m pod target) troubles calls res)
    (hsub : d ⊆ d') : RunsOne (unpacking d' m pod target) troubles calls res := by
  refine h.mono rfl ?_ ?_
  · rintro input ⟨writing, hmem, hwriting⟩
    exact ⟨writing, hsub hmem, hwriting⟩
  · rintro trouble input ⟨writing, hmem, hwriting⟩
    exact ⟨writing, hsub hmem, hwriting⟩

namespace Transcript

variable {d : List Exchange}

theorem runsOne_command {a : Activity} {call : ExecCall} {res : Option (Except Failure ExecOutput)}
    (hcall : call.stdin = []) (h : Transcript (within a (ofCluster (exec call))).run d res) :
    RunsOne (.alone call) (begun d) (ended d) res := by
  obtain ⟨r, hr, rfl⟩ := h.map_cases
  obtain ⟨r', hr', rfl⟩ := hr.map_cases
  have hone : RunsOne (.alone call) (begun d) (ended d)
      (r'.map fun r => r.mapError Failure.ofCluster) :=
    (runsOne_exec hcall hr').map (fun a => ⟨a, rfl⟩) fun e => ⟨_, rfl⟩
  exact hone.map (fun a => ⟨a, rfl⟩) fun e => ⟨_, rfl⟩

theorem within_ok {α : Type} {x : Operation α} {a : Activity} {b : α}
    (h : Transcript (within a x).run d (some (.ok b))) : Transcript x.run d (some (.ok b)) := by
  obtain ⟨r, hrun, hres⟩ := h.map_cases
  obtain ⟨b', rfl, hb⟩ := Option.map_eq_some_iff.mp hres.symm
  cases b' with
  | ok b' =>
    cases hb
    exact hrun
  | error e => cases hb

theorem readWorkload_ok {name : String} {w : DeploymentConfig}
    (h : Transcript (readWorkload name).run d (some (.ok w))) : ⟨.getWorkload name, .ok w⟩ ∈ d := by
  obtain ⟨r, hrun, hres⟩ := h.map_cases
  rcases ask_cases hrun with ⟨rfl, rfl⟩ | ⟨reply, d₁, rfl, h₁⟩
  · cases hres
  obtain ⟨rfl, hreply⟩ := of_done h₁
  obtain ⟨r', hr', hr⟩ := Option.map_eq_some_iff.mp hres.symm
  cases hreply r' hr'
  cases reply with
  | ok w' =>
    cases hr
    exact List.mem_singleton_self _
  | error fault => cases hr

/-- The wait for a pod names the pod that it returned. -/
theorem waitForRunningPod_ok {s : Settings} {selector : String} {p : Pod}
    (h : Transcript (waitForRunningPod s selector).run d (some (.ok p))) :
    ∃ job deadline, ⟨.joinPodWait job deadline, .satisfied p⟩ ∈ d := by
  rcases ask_bind_cases h with ⟨-, hnone⟩ | ⟨handle, d₁, rfl, h₁⟩
  · cases hnone
  rcases ask_bind_cases h₁ with ⟨-, hnone⟩ | ⟨job, d₂, rfl, h₂⟩
  · cases hnone
  rcases ask_bind_cases h₂ with ⟨-, hnone⟩ | ⟨now, d₃, rfl, h₃⟩
  · cases hnone
  rcases ask_bind_cases h₃ with ⟨-, hnone⟩ | ⟨ending, d₄, rfl, h₄⟩
  · cases hnone
  obtain ⟨rfl, hres⟩ := of_done h₄
  cases ending with
  | satisfied o =>
    cases hres _ rfl
    exact ⟨job, now + s.podTimeout, List.mem_cons_of_mem _ (List.mem_cons_of_mem _
      (List.mem_cons_of_mem _ List.mem_cons_self))⟩
  | failed reason => exact nomatch hres _ rfl
  | terminated reason => exact nomatch hres _ rfl
  | timedOut => exact nomatch hres _ rfl

/-- The files that are pushed are sent once it is known what they are. -/
theorem runsOne_pushFiles {root : Path} {pod target : String} {changed : List Path}
    {res : Option (Except Failure Manifest)} (hobey : TransfersObey d)
    (h : Transcript (pushFiles root pod target changed).run d res) :
    (Quiescent d ∧ ∀ a, res ≠ some (.ok a)) ∨
      ∃ m, ⟨.buildManifest root changed, .ok m⟩ ∈ d ∧
        RunsOne (unpacking d m pod target) (begun d) (ended d) res ∧
        ∀ a, res = some (.ok a) → a = m := by
  rcases h.pushFiles_cases with
    ⟨hquiet, hres⟩ | ⟨m, d₁, sent, hbuilt, hsub, hbegun, hended, hsend, rfl⟩
  · refine .inl ⟨hquiet, fun a ha => ?_⟩
    obtain ⟨e, -, he⟩ := hres _ ha
    cases he
  refine .inr ⟨m, hbuilt, ?_, fun a ha => ?_⟩
  · rw [hbegun, hended]
    have hone := (runsOne_sendArchive (hobey.mono hsub) hsend).map (g := m.pushed pod)
      (fun a => ⟨m, rfl⟩) fun e => ⟨_, rfl⟩
    exact runsOne_unpacking_mono hone hsub
  · obtain ⟨r, -, hr⟩ := Option.map_eq_some_iff.mp ha
    cases r with
    | ok _ => exact (Except.ok.inj hr).symm
    | error e => cases hr

end Transcript

/-! ## Three commands -/

/-- What a push does in the pod, once it knows the directory. -/
def runCommands (root : Path) (pod target : String) (changed : List Path) : Operation Manifest := do
  let _ ← within (.createTarget target pod)
    (ofCluster (exec { pod, command := ["mkdir", "-p", target] }))
  let m ← pushFiles root pod target changed
  let _ ← within (.restart pod) (ofCluster (exec { pod, command := restartCommand }))
  return m

theorem push_eq (s : Settings) (name : String) (root : Path) (changed : List Path) :
    push s name root changed = (do
      let p ← within (.push name) (waitForRunningPod s (podLabel ++ "=" ++ name))
      let d ← within (.getWorkload name) (readWorkload name)
      let target ← given (d.sourceTarget name)
      runCommands root (Resource.nameOf p) target changed) := rfl

/-- The results of a push that it may end with: the manifest, exactly if all was done well. -/
structure Returns (res : Option (Except Failure Manifest)) (m : Manifest) (well : Bool) : Prop where
  ok_iff : ∀ r ∈ res, (∃ a, r = .ok a) ↔ well = true
  eq_of_ok : ∀ a, res = some (.ok a) → a = m

theorem Returns.failing {res : Option (Except Failure Manifest)} (h : ∀ a, res ≠ some (.ok a))
    (m : Manifest) : Returns res m false where
  ok_iff := fun _ hr => ⟨fun ⟨a, ha⟩ => absurd (ha ▸ hr) (h a), fun h => nomatch h⟩
  eq_of_ok := fun a ha => absurd ha (h a)

namespace Transcript

variable {d all : List Exchange} {root : Path} {pod target : String} {changed : List Path}
  {res : Option (Except Failure Manifest)}

/-- The last command. -/
theorem restarted {m : Manifest}
    (h : Transcript ((do
      let _ ← within (.restart pod) (ofCluster (exec { pod, command := restartCommand }))
      return m : Operation Manifest)).run d res) :
    ∃ well, InOrder [restarting pod] (begun d) (ended d) well ∧ Returns res m well := by
  rw [Operation.run_bind_pure] at h
  obtain ⟨r, hrun, rfl⟩ := h.map_cases
  have hone : RunsOne (restarting pod) (begun d) (ended d) (r.map fun r => r.map fun _ => m) :=
    (runsOne_command rfl hrun).map (fun a => ⟨m, rfl⟩) fun e => ⟨_, rfl⟩
  obtain ⟨well, horder, hiff⟩ := hone.last
  exact ⟨well, horder, hiff, fun a ha => eq_of_map_ok ha⟩

/-- The second command, when it is not followed by the third. -/
theorem unpacked (hobey : TransfersObey all) (hall : d ⊆ all)
    (h : Transcript (pushFiles root pod target changed).run d res) :
    ∃ m, InOrder [unpacking all m pod target, restarting pod] (begun d) (ended d) false ∧
      (ended d ≠ [] → ⟨.buildManifest root changed, .ok m⟩ ∈ all) := by
  rcases runsOne_pushFiles (hobey.mono hall) h with ⟨⟨-, hended⟩, -⟩ | ⟨m, hbuilt, hone, -⟩
  · rw [hended]
    exact ⟨default, .stopped _ _ _, fun h => absurd rfl h⟩
  · exact ⟨m, (runsOne_unpacking_mono hone hall).inOrder _ [], fun _ => hall hbuilt⟩

/-- The second command, and the third. -/
theorem unpacked_restarted (hobey : TransfersObey all) (hall : d ⊆ all)
    (h : Transcript ((do
      let m ← pushFiles root pod target changed
      let _ ← within (.restart pod) (ofCluster (exec { pod, command := restartCommand }))
      return m : Operation Manifest)).run d res) :
    ∃ m well, InOrder [unpacking all m pod target, restarting pod] (begun d) (ended d) well ∧
      (ended d ≠ [] → ⟨.buildManifest root changed, .ok m⟩ ∈ all) ∧ Returns res m well := by
  rcases h.operation_cases with ⟨hres, r, hfiles⟩ | ⟨a, d₁, d₂, rfl, hfiles, hrest⟩
  · obtain ⟨m, horder, hbuilt⟩ := hfiles.unpacked hobey hall
    exact ⟨m, false, horder, hbuilt, .failing hres m⟩
  have hfirst : d₁ ⊆ all := fun e he => hall (List.mem_append_left d₂ he)
  rcases runsOne_pushFiles (hobey.mono hfirst) hfiles with ⟨-, hres⟩ | ⟨m, hbuilt, hone, hm⟩
  · exact absurd rfl (hres a)
  obtain rfl := hm a rfl
  obtain ⟨well, horder, hreturns⟩ := hrest.restarted
  refine ⟨a, well, ?_, fun _ => hfirst hbuilt, hreturns⟩
  rw [begun_append, ended_append]
  exact (runsOne_unpacking_mono hone hfirst).append horder

/-- All three, and what becomes of them. -/
theorem runCommands_inOrder (hobey : TransfersObey all) (hall : d ⊆ all)
    (h : Transcript (runCommands root pod target changed).run d res) :
    ∃ m well, InOrder (pushPlan all m pod target) (begun d) (ended d) well ∧
      (1 < (ended d).length → ⟨.buildManifest root changed, .ok m⟩ ∈ all) ∧
      Returns res m well := by
  rcases h.operation_cases with ⟨hres, r, hmake⟩ | ⟨output, d₁, d₂, rfl, hmake, hrest⟩
  · have hone : RunsOne (making pod target) (begun d) (ended d) r := runsOne_command rfl hmake
    refine ⟨default, false, hone.inOrder _ _, fun hlength => ?_, .failing hres _⟩
    exact absurd hlength (Nat.not_lt.mpr hone.length_le)
  have hsecond : d₂ ⊆ all := fun e he => hall (List.mem_append_right d₁ he)
  obtain ⟨m, well, horder, hbuilt, hreturns⟩ := hrest.unpacked_restarted hobey hsecond
  have hone : RunsOne (making pod target) (begun d₁) (ended d₁)
      (some (.ok output) : Option (Except Failure ExecOutput)) := runsOne_command rfl hmake
  refine ⟨m, well, ?_, fun hlength => hbuilt fun hnil => ?_, hreturns⟩
  · rw [begun_append, ended_append]
    exact hone.append horder
  · rw [ended_append, hnil, List.append_nil] at hlength
    exact absurd hlength (Nat.not_lt.mpr hone.length_le)

/-- **Pushes on their own terms**: whatever a push is answered, as long as commands read to the end
or nothing, it runs its commands in order, in the pod that the wait returned and on the directory
that the workload names. -/
theorem push_inOrder {s : Settings} {name : String} (hobey : TransfersObey d)
    (h : Transcript (push s name root changed).run d res) :
    ∃ pod target m well, InOrder (pushPlan d m pod target) (begun d) (ended d) well ∧
      (ended d ≠ [] → ToldWhere d name pod target) ∧
      (1 < (ended d).length → ⟨.buildManifest root changed, .ok m⟩ ∈ d) ∧
      Returns res m well := by
  have hidle : Quiescent d → (∀ a, res ≠ some (.ok a)) →
      ∃ pod target m well, InOrder (pushPlan d m pod target) (begun d) (ended d) well ∧
        (ended d ≠ [] → ToldWhere d name pod target) ∧
        (1 < (ended d).length → ⟨.buildManifest root changed, .ok m⟩ ∈ d) ∧
        Returns res m well := by
    rintro ⟨-, hended⟩ hres
    rw [hended]
    exact ⟨"", "", default, false, .stopped _ _ _, fun h => absurd rfl h,
      fun h => absurd h (Nat.not_lt_zero _), .failing hres _⟩
  rw [push_eq] at h
  rcases h.operation_cases with ⟨hres, r, hwait⟩ | ⟨p, d₁, d', rfl, hwait, h₁⟩
  · exact hidle (hwait.quiescent (asks_waitForRunningPod.within _)) hres
  have hbefore : Quiescent d₁ := hwait.quiescent (asks_waitForRunningPod.within _)
  have hasks : (within (.getWorkload name) (readWorkload name)).Asks fun r => ¬ r.IsCommand :=
    (asks_readWorkload id).within _
  rcases h₁.operation_cases with ⟨hres, r, hread⟩ | ⟨w, d₂, d₃, rfl, hread, h₂⟩
  · exact hidle (hbefore.append (hread.quiescent hasks)) hres
  have hmiddle : Quiescent d₂ := hread.quiescent hasks
  rcases given_bind_cases h₂ with ⟨e, -, rfl, hres⟩ | ⟨target, htarget, h₃⟩
  · exact hidle (hbefore.append (hmiddle.append ⟨rfl, rfl⟩)) fun a ha => nomatch hres _ ha
  have hlast : d₃ ⊆ d₁ ++ (d₂ ++ d₃) :=
    fun e he => List.mem_append_right d₁ (List.mem_append_right d₂ he)
  obtain ⟨m, well, horder, hbuilt, hreturns⟩ := runCommands_inOrder hobey hlast h₃
  obtain ⟨job, deadline, hp⟩ := waitForRunningPod_ok hwait.within_ok
  have hw : ⟨.getWorkload name, .ok w⟩ ∈ d₂ := readWorkload_ok hread.within_ok
  have hbegun : begun (d₁ ++ (d₂ ++ d₃)) = begun d₃ := by
    rw [begun_append, begun_append, hbefore.1, hmiddle.1, List.nil_append, List.nil_append]
  have hended : ended (d₁ ++ (d₂ ++ d₃)) = ended d₃ := by
    rw [ended_append, ended_append, hbefore.2, hmiddle.2, List.nil_append, List.nil_append]
  rw [hbegun, hended]
  refine ⟨Resource.nameOf p, target, m, well, horder, fun _ => ?_, hbuilt, hreturns⟩
  exact ⟨job, deadline, p, w, List.mem_append_left _ hp, rfl,
    List.mem_append_right d₁ (List.mem_append_left d₃ hw), htarget⟩

end Transcript

/-! ## In a world -/

/-- The commands of a push, but for what they read. -/
def pushCalls (pod target : String) (m : Manifest) : List ExecCall := [
  { pod, command := ["mkdir", "-p", target] },
  { pod, command := m.unpackCommand target },
  { pod, command := restartCommand }]

section

variable {d : List Exchange} {m : Manifest} {pod target : String}
  {troubles : List (Option ExecTrouble)} {calls : List ExecCall} {well : Bool}

/-- A command that is not fed anything reads nothing. -/
theorem InOrder.stdin_alone {plan : List Planned} (h : InOrder plan troubles calls well) {i : Nat}
    {c call : ExecCall} (hc : calls[i]? = some c) (hp : plan[i]? = some (.alone call)) :
    c.stdin = [] := by
  obtain ⟨p, input, trouble, hplan, rfl, -, hends⟩ := h.ended_at hc
  cases hp.symm.trans hplan
  exact hends.elim (fun h => h.1) fun h => h.1.2

/-- What the second command of a push has read. -/
theorem InOrder.stdin_unpacking (h : InOrder (pushPlan d m pod target) troubles calls well)
    {c : ExecCall} (hc : calls[1]? = some c) :
    ∃ trouble, ∃ writing : Writing, troubles[1]? = some trouble ∧ ⟨.readFiles m, writing⟩ ∈ d ∧
      (c.stdin = if hangsUp trouble then [] else writing.bytes) ∧
      (2 < calls.length → writing.failure = none ∧ trouble = none) := by
  obtain ⟨p, input, trouble, hplan, rfl, htrouble, hends⟩ := h.ended_at hc
  obtain rfl : unpacking d m pod target = p := Option.some.inj hplan
  rcases hends with ⟨⟨writing, hmem, hwell, rfl⟩, rfl⟩ | ⟨⟨writing, hmem, rfl⟩, hlast⟩
  · exact ⟨none, writing, htrouble, hmem, rfl, fun _ => ⟨hwell, rfl⟩⟩
  · exact ⟨trouble, writing, htrouble, hmem, rfl, fun hmore => absurd hlast (Nat.ne_of_gt hmore)⟩

/-- The third command comes after one that read all of an archive. -/
theorem InOrder.stdin_push (h : InOrder (pushPlan d m pod target) troubles calls well)
    (hlength : 2 < calls.length) :
    ∃ writing : Writing, ⟨.readFiles m, writing⟩ ∈ d ∧ writing.failure = none ∧
      calls.map (·.stdin) = [[], writing.bytes, []] := by
  have hthree : calls.length = 3 := by
    have hle := h.isPrefix.length_le
    rw [List.length_map, List.length_map] at hle
    exact Nat.le_antisymm hle hlength
  obtain ⟨c₀, c₁, c₂, rfl⟩ := List.length_eq_three.mp hthree
  obtain ⟨trouble, writing, -, hmem, hread, hdone⟩ := h.stdin_unpacking rfl
  obtain ⟨hwell, rfl⟩ := hdone hlength
  have h₀ : c₀.stdin = [] := h.stdin_alone (i := 0) rfl rfl
  have h₂ : c₂.stdin = [] := h.stdin_alone (i := 2) rfl rfl
  refine ⟨writing, hmem, hwell, ?_⟩
  rw [List.map_cons, List.map_cons, List.map_cons, List.map_nil, h₀, hread, h₂]
  rfl

end

section

variable {α : Type} {p q : Program α} {w w' : World} {t : List (Event Unit)}

theorem Course.transfersObey (h : Course p w t q w') : TransfersObey (exchanges t) := by
  intro trouble writing s hmem
  obtain ⟨w₁, w₂, hevent⟩ := exists_event_of_exchange hmem
  exact h.obeys hevent

/-- What is to be transferred is what the local files said at some moment of a course. -/
theorem Course.built (h : Course p w t q w') {root : Path} {changed : List Path} {m : Manifest}
    (hmem : ⟨.buildManifest root changed, .ok m⟩ ∈ exchanges t) :
    ∃ w₁ w₂, Event.asked () (.buildManifest root changed) w₁ (.ok m) w₂ ∈ t ∧
      Manifest.build w₁.files root changed = .ok m := by
  obtain ⟨w₁, w₂, hevent⟩ := exists_event_of_exchange hmem
  rcases h.answers hevent with hanswer | hopen
  · have hbuilt : (Manifest.build w₁.files root changed, w₁) = (.ok m, w₂) :=
      Option.some.inj hanswer
    exact ⟨w₁, w₂, hevent, congrArg Prod.fst hbuilt⟩
  · exact hopen.elim

/-- What is written of an archive is what the local files make of it at some moment of a course. -/
theorem Course.written (h : Course p w t q w') {m : Manifest} {writing : Writing}
    (hmem : ⟨.readFiles m, writing⟩ ∈ exchanges t) :
    ∃ w₁ w₂, Event.asked () (.readFiles m) w₁ writing w₂ ∈ t ∧ m.writing w₁.files = writing := by
  obtain ⟨w₁, w₂, hevent⟩ := exists_event_of_exchange hmem
  rcases h.answers hevent with hanswer | hopen
  · have hread : (m.writing w₁.files, w₁) = (writing, w₂) := Option.some.inj hanswer
    exact ⟨w₁, w₂, hevent, congrArg Prod.fst hread⟩
  · exact hopen.elim

/-- If it is complete, it is the archive. -/
theorem Course.archived (h : Course p w t q w') {m : Manifest} {writing : Writing}
    (hmem : ⟨.readFiles m, writing⟩ ∈ exchanges t) (hwell : writing.failure = none) :
    ∃ w₁ w₂, Event.asked () (.readFiles m) w₁ writing w₂ ∈ t ∧
      m.archive w₁.files = .ok writing.bytes := by
  obtain ⟨w₁, w₂, hevent, hwriting⟩ := h.written hmem
  refine ⟨w₁, w₂, hevent, ?_⟩
  unfold Manifest.archive
  rw [hwriting]
  dsimp only
  rw [hwell]

end

/-- **Pushes**: in every course of a push, whatever others do meanwhile but record commands,

- the commands that are recorded are the first ones of the three, all of them in the pod that the
  wait returned and on the directory that the workload names;
- none is recorded after one that met trouble;
- the second, however it ended, has read all that was written of the archive of the manifest, which
  may have broken off, or nothing if it hung up;
- the third is recorded only when the second has read the complete archive of the manifest;
- the push succeeds exactly if three were recorded and none met trouble, and returns that
  manifest. -/
theorem push_runs_in_order {s : Settings} {name : String} {root : Path} {changed : List Path}
    {w w' : World} {t : List (Event Unit)} {q : Program (Except Failure Manifest)}
    (h : Course (push s name root changed).run w t q w') (hothers : Unrecorded t) :
    ∃ calls pod target m, w'.cluster.execCalls = w.cluster.execCalls ++ calls ∧
      calls.map ExecCall.unread <+: pushCalls pod target m ∧
      (calls ≠ [] → ToldWhere (exchanges t) name pod target) ∧
      (1 < calls.length → ∃ w₁ w₂, Event.asked () (.buildManifest root changed) w₁ (.ok m) w₂ ∈ t ∧
        Manifest.build w₁.files root changed = .ok m) ∧
      (∀ i, i + 1 < calls.length → (begun (exchanges t))[i]? = some none) ∧
      (∀ c, calls[1]? = some c → ∃ w₁ w₂ trouble,
        Event.asked () (.readFiles m) w₁ (m.writing w₁.files) w₂ ∈ t ∧
          (begun (exchanges t))[1]? = some trouble ∧
          c.stdin = if hangsUp trouble then [] else (m.writing w₁.files).bytes) ∧
      (2 < calls.length → ∃ w₁ w₂ writing archive,
        Event.asked () (.readFiles m) w₁ writing w₂ ∈ t ∧ m.archive w₁.files = .ok archive ∧
          calls.map (·.stdin) = [[], archive, []]) ∧
      ∀ r, q = .done r →
        ((∃ a, r = .ok a) ↔ calls.length = 3 ∧ ∀ x ∈ begun (exchanges t), x = none) ∧
          ∀ a, r = .ok a → a = m := by
  obtain ⟨pod, target, m, well, horder, htold, hbuilt, hreturns⟩ :=
    h.transcript.push_inOrder h.transfersObey
  refine ⟨ended (exchanges t), pod, target, m, h.execCalls hothers, horder.isPrefix, htold,
    fun hlength => h.built (hbuilt hlength), fun i hi => horder.well_before hi, fun c hc => ?_,
    fun hlength => ?_, fun r hr => ⟨?_, fun a ha => ?_⟩⟩
  · obtain ⟨trouble, writing, htrouble, hmem, hread, -⟩ := horder.stdin_unpacking hc
    obtain ⟨w₁, w₂, hevent, rfl⟩ := h.written hmem
    exact ⟨w₁, w₂, trouble, hevent, htrouble, hread⟩
  · obtain ⟨writing, hmem, hwell, hstdin⟩ := horder.stdin_push hlength
    obtain ⟨w₁, w₂, hevent, harchive⟩ := h.archived hmem hwell
    exact ⟨w₁, w₂, writing, writing.bytes, hevent, harchive, hstdin⟩
  · subst hr
    exact (hreturns.ok_iff r rfl).trans horder.done_iff
  · subst hr ha
    exact hreturns.eq_of_ok a rfl

/-- A pod of the shop that runs. -/
def shopPod : Pod where
  metadata := { name := some "web-1", labels := some (.singleton podLabel "web") }
  status := some { phase := some "Running" }

/-- The shop with its files, and with a pod that runs. -/
def pushingWorld : World := { shopWorld with
  files := shopFiles
  cluster := { shopWorld.cluster with pods := (shopWorld.cluster.pods.upsert shopPod).2 } }

theorem push_runs_in_order_shop :
    ∃ t q w', Course (push {} "web" ⟨"app"⟩ []).run pushingWorld t q w' ∧ Unrecorded t ∧
      ∃ calls pod target m, w'.cluster.execCalls = calls ∧
        calls.map ExecCall.unread = pushCalls pod target m ∧
        ∃ (w₁ : World) (archive : List UInt8), m.archive w₁.files = .ok archive ∧
          calls.map (·.stdin) = [[], archive, []] := by
  have hplayed : (runAlone 10 (push {} "web" ⟨"app"⟩ []).run pushingWorld).map
      (fun o => o.world.cluster.execCalls.length) = some 3 := by decide +kernel
  obtain ⟨o, hrun, hthree⟩ := Option.map_eq_some_iff.mp hplayed
  have htame : ∀ e ∈ ([] : List (Entry Empty)), e.step.Tame := fun _ he => nomatch he
  obtain ⟨t, q, hcourse, hothers, -⟩ := exists_course_of_runBeside htame hrun
  obtain ⟨calls, pod, target, m, hcalls, horder, -, -, -, -, hread, -⟩ :=
    push_runs_in_order hcourse hothers
  replace hcalls : o.world.cluster.execCalls = calls := hcalls
  have hlength : calls.length = 3 := hcalls ▸ hthree
  obtain ⟨w₁, _, _, archive, -, harchive, hstdin⟩ := hread (by rw [hlength]; decide)
  refine ⟨t, q, o.world, hcourse, hothers, calls, pod, target, m, hcalls, ?_, w₁, archive, harchive,
    hstdin⟩
  exact horder.eq_of_length ((List.length_map _).trans hlength)

/-- Of an archive that cannot be made, what could be is unpacked, and no more is run. -/
example :
    (runAlone 10 (push {} "web" ⟨"app"⟩ []).run { pushingWorld with files := spoiledFiles }).map
      (fun o => o.world.cluster.execCalls.map fun c => (c.command.head?, c.stdin.length)) =
    some [(some "mkdir", 0), (some "tar", 1536)] := by decide +kernel

end InnerLoop
