import InnerLoop.Command.Run
import InnerLoop.Proofs.Alone
import InnerLoop.Proofs.Detaching
import InnerLoop.Proofs.GivenVariables
import InnerLoop.Proofs.Marks
import InnerLoop.Proofs.Play
import InnerLoop.Proofs.SoleWriter

/-!
# Setting variables

Arguments that cannot be read are refused before anything is asked. Others are read as a whole, and
the variables they give are set in one update of the workload, which changes nothing else.

Where the container has several variables of a name, the first of them is set and the others stay.
Nothing is claimed about runs in which somebody else writes workloads.

- `DeploymentConfig.withPrimaryEnv`: a workload with other variables in its primary container.
- `DeploymentConfig.putEnvVars_eq_ok`, `DeploymentConfig.putEnvVars_eq_error`: what the change makes
  of a workload, and when it makes nothing of it.
- `GivenTo`: variables after some were given.
- `EnvSet`: what the command comes to.
- `setEnv_law`: **the command sets all variables or none**, and comes to an end.
-/

namespace InnerLoop

/-! ## The change -/

namespace DeploymentConfig

variable {d : DeploymentConfig} {name : String} {p : Container}

/-- The workload with variables in the containers of a name, in place of those that were there. -/
def withPrimaryEnv (name : String) (vars : List EnvVar) (d : DeploymentConfig) : DeploymentConfig :=
  d.mapPodSpec fun s =>
    { s with containers := changeNamed name (fun c => { c with env := some vars }) s.containers }

/-- Where there is a primary container its variables are changed. -/
theorem putEnvVars_of_primary (hp : d.primary name = .ok p) (vars : List EnvVar) :
    d.putEnvVars name vars = .ok (d.withPrimaryEnv name (mergeEnv (p.env.getD []) vars)) := by
  unfold putEnvVars withPrimaryEnv
  rw [modifyPrimary_of_primary hp, mapPodSpec_of_primary hp]
  have hsame : changeNamed name (fun c => { c with env := some (mergeEnv (c.env.getD []) vars) })
        d.podSpec.containers =
      changeNamed name (fun c => { c with env := some (mergeEnv (p.env.getD []) vars) })
        d.podSpec.containers :=
    changeNamed_congr hp rfl
  rw [hsame]

theorem putEnvVars_eq_ok {vars : List EnvVar} {d' : DeploymentConfig}
    (h : d.putEnvVars name vars = .ok d') :
    ∃ p, d.named name = [p] ∧ d' = d.withPrimaryEnv name (mergeEnv (p.env.getD []) vars) := by
  obtain ⟨p, hp, -⟩ := bind_eq_ok_iff.mp h
  rw [putEnvVars_of_primary hp] at h
  cases h
  exact ⟨p, primary_eq_ok_iff.mp hp, rfl⟩

/-- Where there is none, or there are several, the workload is corrupt. -/
theorem putEnvVars_eq_error {vars : List EnvVar} {e : Failure}
    (h : d.putEnvVars name vars = .error e) :
    (d.named name).length ≠ 1 ∧ e.kind = .corruption := by
  unfold putEnvVars modifyPrimary primary at h
  split at h
  · cases h
  · rename_i hnone
    cases h
    exact ⟨by rw [hnone]; exact Nat.zero_ne_one, rfl⟩
  · rename_i hone _
    cases h
    refine ⟨fun hlength => ?_, rfl⟩
    obtain ⟨c, hc⟩ := List.length_eq_one_iff.mp hlength
    exact hone c hc

end DeploymentConfig

/-! ## What the command comes to -/

/-- Variables after some were given: what was given is set in its place, each value to all that
follows the first equals sign, and the others are as they were. -/
structure GivenTo (args : List String) (old vars : List EnvVar) : Prop where
  merged : vars = mergeEnv old (args.map givenVar)
  given : ∀ key value, '=' ∉ key.toList → key ++ "=" ++ value ∈ args →
    vars.find? (fun x => x.name = key) = some (.plain key value)
  others : vars.filter (fun x => x.name ∉ args.map givenKey) =
    old.filter fun x => x.name ∉ args.map givenKey

theorem givenTo_mergeEnv {args : List String} (h : Assigns [] args) (old : List EnvVar) :
    GivenTo args old (mergeEnv old (args.map givenVar)) where
  merged := rfl
  given key value hkey hmem := by
    have hfound := find?_mergeEnv_given h old _ hmem
    unfold givenVar at hfound
    obtain ⟨hname, hvalue⟩ := givenVar_append hkey value
    rw [hname, hvalue] at hfound
    exact hfound
  others := filter_mergeEnv_given args old

/-- What the command comes to. There is no workload, or there is not exactly one container of its
name in it, and nothing is written; or variables are set in that container, and what is stored is
otherwise the same but for its version. -/
inductive EnvSet (name : String) (args : List String) (w w' : World) :
    Except CommandFault Unit → Prop
  | missing {f : Failure} (hstored : w.stored name = none) (hkind : f.kind = .notFound)
      (hsame : w'.cluster.workloads.objects = w.cluster.workloads.objects) :
      EnvSet name args w w' (.error (.failed f))
  | corrupt {d : DeploymentConfig} {f : Failure} (hstored : w.stored name = some d)
      (hnamed : (d.named name).length ≠ 1) (hkind : f.kind = .corruption)
      (hsame : w'.cluster.workloads.objects = w.cluster.workloads.objects) :
      EnvSet name args w w' (.error (.failed f))
  | written {d : DeploymentConfig} {p : Container} {vars : List EnvVar} {version : String}
      (hstored : w.stored name = some d) (hnamed : d.named name = [p])
      (hvars : GivenTo args (p.env.getD []) vars)
      (hobjects : w'.cluster.workloads.objects =
        w.cluster.workloads.objects.insert name
          (Resource.withVersion version (d.withPrimaryEnv name vars))) :
      EnvSet name args w w' (.ok ())

section

variable {name : String} {args : List String} {w w' : World}

/-- Of its own accord the runner writes nothing. -/
theorem RunnersOwn.unwritten (h : RunnersOwn w w') : Unwritten w w' := by
  obtain ⟨pods, hcluster⟩ := h.exists_cluster
  exact ⟨by rw [hcluster], Nat.le_of_eq (by rw [hcluster])⟩

/-- A change of the variables that has settled, as the command tells of it. -/
theorem Settled.envSet {answer : DeploymentConfig → Unit → Unit} {r : Except Failure Unit}
    (hargs : Assigns [] args)
    (h : Settled name (silently (·.putEnvVars name (args.map givenVar))) answer w w' r)
    (activity : Activity) :
    EnvSet name args w w' (((Failure.within activity r).mapError .failed).map fun _ => ()) := by
  cases h with
  | missing hstored hsame => exact .missing hstored rfl hsame
  | refused hstored hedit hsame =>
    obtain ⟨hnamed, hkind⟩ := DeploymentConfig.putEnvVars_eq_error (silently_eq_error hedit)
    exact .corrupt hstored hnamed hkind hsame
  | written hstored hedit hobjects =>
    obtain ⟨p, hnamed, rfl⟩ := DeploymentConfig.putEnvVars_eq_ok (silently_eq_ok hedit)
    exact .written hstored hnamed (givenTo_mergeEnv hargs _) hobjects

end

/-! ## The command -/

namespace Command

variable {name : String} {args : List String}

/-- An operation as a command. -/
theorem run_quietly {α : Type} (x : Operation α) :
    (quietly x).run = x.run.bind fun r => .done ((r.mapError .failed).map fun _ => ()) := by
  show (x.run.bind _).bind _ = _
  rw [Program.bind_assoc]
  refine congrArg x.run.bind (funext fun r => ?_)
  cases r with
  | ok a => rfl
  | error e => rfl

/-- Arguments that cannot be read are refused before anything is asked. -/
theorem run_setEnv_of_not_assigns (c : Config) (rounds : Nat) (h : ¬ Assigns [] args) :
    ∃ fault, ((setEnv name args).run c rounds).run =
      .done (.error (.failed (.invalid fault))) := by
  obtain ⟨fault, hread⟩ := parseEnv_of_not_assigns h
  refine ⟨fault, ?_⟩
  show (quietly _).run = _
  rw [hread]
  rfl

/-- Arguments that can be read are read before anything is asked. -/
theorem run_setEnv_of_assigns (c : Config) (rounds : Nat) (h : Assigns [] args) :
    ((setEnv name args).run c rounds).run =
      (addEnvVars c.settings name (args.map givenVar)).run.bind fun r =>
        .done ((r.mapError .failed).map fun _ => ()) := by
  show (quietly _).run = _
  rw [parseEnv_of_assigns h]
  exact run_quietly _

/-- The command needs nothing but time. -/
theorem asks_setEnv (c : Config) (rounds : Nat) (name : String) (h : Assigns [] args) :
    ((setEnv name args).run c rounds).run.Asks Request.NeedsOnlyTime := by
  rw [run_setEnv_of_assigns c rounds h]
  have hread : (readWorkload name).Asks Request.NeedsOnlyTime := asks_readWorkload (.inr nofun)
  have hwrite : ∀ d, (writeWorkload d).Asks Request.NeedsOnlyTime := fun d =>
    .ofCluster ⟨.inr nofun, fun _ => trivial⟩
  have honce : ∀ change : Edit Unit, (changeOnce name change).Asks Request.NeedsOnlyTime :=
    fun change => .bind hread fun _ => .bind (.given _) fun _ => .bind (hwrite _) fun _ => .pure _
  have hretried : (addEnvVars c.settings name (args.map givenVar)).Asks Request.NeedsOnlyTime :=
    .within (asks_retrying (honce _) (.inr nofun) fun time => .inl ⟨time, rfl⟩) _
  exact Program.Asks.bind hretried fun _ => trivial

variable {w w' : World} {t : List (Event Unit)} {r : Except CommandFault Unit}

/-- A run of the command in which nobody else writes. -/
theorem envSet_of_run {c : Config} {rounds : Nat} (hargs : Assigns [] args) (hw : w.Sound)
    (hothers : OthersDo Unwritten t)
    (hbudget : w.cluster.pendingConflicts < c.settings.backoff.attempts)
    (h : Run ((setEnv name args).run c rounds).run w t (some r) w') : EnvSet name args w w' r := by
  rw [run_setEnv_of_assigns c rounds hargs] at h
  obtain ⟨res, hrun, hres⟩ := h.map_cases
  obtain ⟨told, rfl, rfl⟩ := Option.map_eq_some_iff.mp hres.symm
  -- What is wrong with the workload is not taken for a conflict and tried again.
  have hplain : ∀ (d : DeploymentConfig) (e : Failure),
      silently (·.putEnvVars name (args.map givenVar)) d = .error e → e.kind ≠ .conflict := by
    intro d e he
    obtain ⟨-, hkind⟩ := DeploymentConfig.putEnvVars_eq_error (silently_eq_error he)
    rw [hkind]
    nofun
  obtain ⟨settled, rfl, hsettled⟩ := hrun.changeWorkload_settled (keepsIdentity_putEnvVars _ _)
    hplain hw hothers hbudget
  exact hsettled.envSet hargs (.updateEnv name)

/-- **The command sets all variables or none.** -/
theorem setEnv_law (c : Config) (rounds : Nat) (name : String) (args : List String) :
    (¬ Assigns [] args → ∃ fault, ((setEnv name args).run c rounds).run =
      .done (.error (.failed (.invalid fault)))) ∧
    (Assigns [] args → ∀ w : World, w.Reachable →
      w.cluster.pendingConflicts < c.settings.backoff.attempts →
      (∀ t r w', Run ((setEnv name args).run c rounds).run w t (some r) w' →
        OthersDo Unwritten t → EnvSet name args w w' r) ∧
      ∃ turns o r, runAlone turns ((setEnv name args).run c rounds).run w = some o ∧
        o.main.result = some r ∧ EnvSet name args w o.world r) := by
  refine ⟨run_setEnv_of_not_assigns c rounds, fun hargs w hw hbudget => ⟨?_, ?_⟩⟩
  · intro t r w' hrun hothers
    exact envSet_of_run hargs hw.sound hothers hbudget hrun
  · obtain ⟨turns, o, t, r, hend, hresult, hrun, hothers⟩ :=
      exists_run_alone (asks_setEnv c rounds name hargs) w
    have halone : OthersDo Unwritten t := fun x y hmem => (hothers x y hmem).unwritten
    exact ⟨turns, o, r, hend, hresult, envSet_of_run hargs hw.sound halone hbudget hrun⟩

end Command

/-! ## A shop with variables -/

/-- The world with so many conflicts arranged. -/
def World.withConflicts (w : World) (n : Nat) : World :=
  w.modifyCluster fun c => { c with pendingConflicts := n }

theorem Others.withConflicts (w : World) (n : Nat) : Others w (w.withConflicts n) := .same rfl rfl

/-- The shop with variables. -/
def greetingShop : DeploymentConfig :=
  shopWorkload.withPrimaryEnv "web" [.plain "PATH" "/bin", .plain "GREETING" "hello"]

/-- A world with that shop, where two updates meet another writer. -/
def greetingWorld : World := (shopWorld.fileWorkload greetingShop).withConflicts 2

theorem reachable_greetingWorld : greetingWorld.Reachable :=
  .turn (.turn reachable_shopWorld (.fileWorkload _ greetingShop)) (.withConflicts _ 2)

theorem stored_greetingWorld :
    greetingWorld.stored "web" = some (Resource.withVersion "2" greetingShop) := rfl

/-- A value with an equals sign and an empty one are set, and a name is not given twice. -/
theorem Command.setEnv_law_shop :
    greetingWorld.Reachable ∧ greetingWorld.cluster.pendingConflicts = 2 ∧
    Assigns [] ["GREETING=a=b", "EMPTY="] ∧ ¬ Assigns [] ["EMPTY=", "EMPTY=1"] ∧
    (∃ turns o, runAlone turns
        ((Command.setEnv "web" ["GREETING=a=b", "EMPTY="]).run {} 0).run greetingWorld = some o ∧
      o.main.result = some (.ok ()) ∧
      EnvSet "web" ["GREETING=a=b", "EMPTY="] greetingWorld o.world (.ok ())) ∧
    ∃ fault, ((Command.setEnv "web" ["EMPTY=", "EMPTY=1"]).run {} 0).run =
      .done (.error (.failed (.invalid fault))) := by
  have hargs : Assigns [] ["GREETING=a=b", "EMPTY="] := by decide
  have htwice : ¬ Assigns [] ["EMPTY=", "EMPTY=1"] := by decide
  refine ⟨reachable_greetingWorld, rfl, hargs, htwice, ?_,
    (Command.setEnv_law {} 0 "web" _).1 htwice⟩
  obtain ⟨-, turns, o, r, hend, hresult, hset⟩ :=
    (Command.setEnv_law {} 0 "web" _).2 hargs greetingWorld reachable_greetingWorld (by decide)
  -- There is a workload, and one container of its name in it.
  obtain rfl : r = .ok () := by
    cases hset with
    | missing hstored => cases stored_greetingWorld.symm.trans hstored
    | corrupt hstored hnamed =>
      cases stored_greetingWorld.symm.trans hstored
      exact absurd rfl hnamed
    | written => rfl
  exact ⟨turns, o, hend, hresult, hset⟩

end InnerLoop
