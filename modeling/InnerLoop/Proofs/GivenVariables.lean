import InnerLoop.Proofs.LastUpdate

/-!
# Variables given as arguments

An argument is cut at its first equals sign, and all that follows is the value, further equals signs
and all. All arguments are read or none is.

- `givenKey`, `givenValue`, `givenVar`: what an argument gives.
- `Assigns`: the arguments that can be read, after some names.
- `parseEnv_of_assigns`, `parseEnv_of_not_assigns`: **what is read of arguments**, and when they are
  refused.
- `find?_mergeEnv_given`, `filter_mergeEnv_given`: what the variables say of names that were given,
  and of the others.
-/

namespace InnerLoop

/-! ## One argument -/

/-- What stands before the first equals sign. -/
def givenKey (arg : String) : String := String.ofList (arg.toList.takeWhile fun c => c ≠ '=')

/-- What stands after it. -/
def givenValue (arg : String) : String :=
  String.ofList ((arg.toList.dropWhile fun c => c ≠ '=').drop 1)

/-- The variable that an argument gives. -/
def givenVar (arg : String) : EnvVar := .plain (givenKey arg) (givenValue arg)

/-- An argument that has an equals sign, and does not start with it. -/
def IsAssignment (arg : String) : Prop := '=' ∈ arg.toList ∧ arg.toList.head? ≠ some '='

instance (arg : String) : Decidable (IsAssignment arg) := inferInstanceAs (Decidable (_ ∧ _))

/-- Where a text is cut for the first time. -/
theorem takeWhile_dropWhile_of_splitFirst {sep : Char} {s before after : List Char}
    (h : Text.splitFirst sep s = some (before, after)) :
    s.takeWhile (fun c => c ≠ sep) = before ∧ (s.dropWhile fun c => c ≠ sep).drop 1 = after := by
  obtain ⟨rfl, hbefore⟩ := Text.splitFirst_eq_some_iff.mp h
  have hother : ∀ c ∈ before, decide (c ≠ sep) = true := fun c hc =>
    decide_eq_true fun heq => hbefore (heq ▸ hc)
  constructor
  · rw [List.takeWhile_append_of_pos hother, List.takeWhile_cons_of_neg (by simp), List.append_nil]
  · rw [List.dropWhile_append_of_pos hother, List.dropWhile_cons_of_neg (by simp)]
    rfl

/-- A name, an equals sign and a value, whatever is in the value. -/
theorem givenVar_append {key : String} (hkey : '=' ∉ key.toList) (value : String) :
    givenKey (key ++ "=" ++ value) = key ∧ givenValue (key ++ "=" ++ value) = value := by
  have hcut : Text.splitFirst '=' (key ++ "=" ++ value).toList =
      some (key.toList, value.toList) :=
    Text.splitFirst_eq_some_iff.mpr ⟨by simp [String.toList_append], hkey⟩
  obtain ⟨hbefore, hafter⟩ := takeWhile_dropWhile_of_splitFirst hcut
  unfold givenKey givenValue
  rw [hbefore, hafter, String.ofList_toList, String.ofList_toList]
  exact ⟨rfl, rfl⟩

/-- One argument is read if it is an assignment. -/
theorem parseEnvVar_cases (arg : String) :
    (IsAssignment arg ∧ parseEnvVar arg = .ok (givenVar arg)) ∨
    (¬ IsAssignment arg ∧ ∃ fault, parseEnvVar arg = .error (.invalid fault)) := by
  unfold parseEnvVar
  cases hcut : Text.splitFirst '=' arg.toList with
  | none => exact .inr ⟨fun h => Text.splitFirst_eq_none_iff.mp hcut h.1, _, rfl⟩
  | some cut =>
    obtain ⟨before, after⟩ := cut
    obtain ⟨hkey, hvalue⟩ := takeWhile_dropWhile_of_splitFirst hcut
    obtain ⟨harg, -⟩ := Text.splitFirst_eq_some_iff.mp hcut
    cases before with
    | nil => exact .inr ⟨fun h => h.2 (by rw [harg]; rfl), _, rfl⟩
    | cons c before =>
      refine .inl ⟨⟨by rw [harg]; simp, ?_⟩, ?_⟩
      · rw [harg]
        rintro ⟨⟩
        exact (Text.splitFirst_eq_some_iff.mp hcut).2 List.mem_cons_self
      · unfold givenVar givenKey givenValue
        rw [hkey, hvalue]

/-! ## All arguments -/

/-- Arguments that can be read after some names: each is an assignment, and none has a name that was
there before. -/
structure Assigns (seen args : List String) : Prop where
  assignment : ∀ arg ∈ args, IsAssignment arg
  distinct : (args.map givenKey).Nodup
  fresh : ∀ arg ∈ args, givenKey arg ∉ seen

theorem assigns_iff {seen args : List String} : Assigns seen args ↔
    (∀ arg ∈ args, IsAssignment arg) ∧ (args.map givenKey).Nodup ∧
      ∀ arg ∈ args, givenKey arg ∉ seen :=
  ⟨fun ⟨hassign, hdistinct, hfresh⟩ => ⟨hassign, hdistinct, hfresh⟩,
    fun ⟨hassign, hdistinct, hfresh⟩ => ⟨hassign, hdistinct, hfresh⟩⟩

instance (seen args : List String) : Decidable (Assigns seen args) :=
  decidable_of_iff _ assigns_iff.symm

/-- The first argument and those after it. -/
theorem assigns_cons_iff {seen args : List String} {arg : String} :
    Assigns seen (arg :: args) ↔
      IsAssignment arg ∧ givenKey arg ∉ seen ∧ Assigns (givenKey arg :: seen) args := by
  constructor
  · rintro ⟨hassign, hdistinct, hfresh⟩
    rw [List.forall_mem_cons] at hassign hfresh
    obtain ⟨hkey, hdistinct⟩ := List.nodup_cons.mp hdistinct
    refine ⟨hassign.1, hfresh.1, hassign.2, hdistinct, fun a ha => ?_⟩
    rw [List.mem_cons, not_or]
    exact ⟨fun heq => hkey (heq ▸ List.mem_map_of_mem ha), hfresh.2 a ha⟩
  · rintro ⟨hassign, hkey, hrest⟩
    have hother : ∀ a ∈ args, givenKey a ≠ givenKey arg ∧ givenKey a ∉ seen := fun a ha => by
      rw [← not_or, ← List.mem_cons]
      exact hrest.fresh a ha
    refine ⟨List.forall_mem_cons.mpr ⟨hassign, hrest.assignment⟩, List.nodup_cons.mpr ⟨?_,
      hrest.distinct⟩, List.forall_mem_cons.mpr ⟨hkey, fun a ha => (hother a ha).2⟩⟩
    intro hmem
    obtain ⟨a, ha, heq⟩ := List.mem_map.mp hmem
    exact (hother a ha).1 heq

/-- An assignment of a name that is new is read in front of the others. -/
theorem parseEnvAfter_cons {seen args : List String} {arg : String}
    (hread : parseEnvVar arg = .ok (givenVar arg)) (hkey : givenKey arg ∉ seen) :
    parseEnvAfter seen (arg :: args) =
      (parseEnvAfter (givenKey arg :: seen) args >>= fun vars => pure (givenVar arg :: vars)) := by
  rw [parseEnvAfter, hread]
  exact if_neg hkey

/-- Arguments are all read, or what is wrong with one of them is told. The induction is on the
arguments, whose names are added to those that were seen. -/
theorem parseEnvAfter_cases (seen args : List String) :
    (Assigns seen args ∧ parseEnvAfter seen args = .ok (args.map givenVar)) ∨
    (¬ Assigns seen args ∧ ∃ fault, parseEnvAfter seen args = .error (.invalid fault)) := by
  induction args generalizing seen with
  | nil => exact .inl ⟨⟨nofun, .nil, nofun⟩, rfl⟩
  | cons arg args ih =>
    rw [assigns_cons_iff]
    rcases parseEnvVar_cases arg with ⟨hassign, hread⟩ | ⟨hassign, fault, hread⟩
    · by_cases hkey : givenKey arg ∈ seen
      · rw [parseEnvAfter, hread]
        exact .inr ⟨fun h => h.2.1 hkey, _, if_pos hkey⟩
      · rw [parseEnvAfter_cons hread hkey]
        rcases ih (givenKey arg :: seen) with ⟨hrest, hall⟩ | ⟨hrest, fault, hall⟩
        · rw [hall]
          exact .inl ⟨⟨hassign, hkey, hrest⟩, rfl⟩
        · rw [hall]
          exact .inr ⟨fun h => hrest h.2.2, fault, rfl⟩
    · rw [parseEnvAfter, hread]
      exact .inr ⟨fun h => hassign h.1, fault, rfl⟩

/-- **What is read of arguments** that can be read: what each of them gives, in their order. -/
theorem parseEnv_of_assigns {args : List String} (h : Assigns [] args) :
    parseEnv args = .ok (args.map givenVar) := by
  rcases parseEnvAfter_cases [] args with ⟨-, hread⟩ | ⟨hnot, -⟩
  · exact hread
  · exact absurd h hnot

/-- **Arguments that are refused** are refused as such. -/
theorem parseEnv_of_not_assigns {args : List String} (h : ¬ Assigns [] args) :
    ∃ fault, parseEnv args = .error (.invalid fault) := by
  rcases parseEnvAfter_cases [] args with ⟨hall, -⟩ | ⟨-, hread⟩
  · exact absurd hall h
  · exact hread

/-! ## What the variables say -/

theorem names_givenVars (args : List String) :
    (args.map givenVar).map EnvVar.name = args.map givenKey := by
  rw [List.map_map]
  rfl

/-- The first variable of a name after an update. -/
theorem find?_putEnv (x : EnvVar) (l : List EnvVar) (n : String) :
    (putEnv x l).find? (fun y => y.name = n) =
      if x.name = n then some x else l.find? fun y => y.name = n := by
  induction l with
  | nil =>
    by_cases hx : x.name = n
    · rw [if_pos hx]
      exact List.find?_cons_of_pos (by simpa using hx)
    · rw [if_neg hx]
      exact List.find?_cons_of_neg (by simpa using hx)
  | cons e r ih =>
    by_cases he : e.name = x.name
    · rw [putEnv_cons_of_eq he]
      by_cases hx : x.name = n
      · rw [if_pos hx, List.find?_cons_of_pos (by simpa using hx)]
      · rw [if_neg hx, List.find?_cons_of_neg (by simpa using hx),
          List.find?_cons_of_neg (by simpa [he] using hx)]
    · -- The update goes behind a variable that bears another name than it.
      rw [putEnv_cons_of_ne he]
      by_cases hn : e.name = n
      · have hx : ¬ x.name = n := fun hx => he (hn.trans hx.symm)
        rw [if_neg hx, List.find?_cons_of_pos (by simpa using hn),
          List.find?_cons_of_pos (by simpa using hn)]
      · rw [List.find?_cons_of_neg (by simpa using hn), ih,
          List.find?_cons_of_neg (by simpa using hn)]

/-- **The first variable of a name** is the last update of it, or what it was. -/
theorem find?_mergeEnv (e u : List EnvVar) (n : String) :
    (mergeEnv e u).find? (fun y => y.name = n) =
      (lastUpdate? u n).or (e.find? fun y => y.name = n) := by
  induction u generalizing e with
  | nil => rfl
  | cons x u ih =>
    show (mergeEnv (putEnv x e) u).find? _ = _
    rw [ih, find?_putEnv, lastUpdate?_cons, Option.or_assoc]
    split <;> rfl

/-- Names without an update keep their variables, in their order. -/
theorem filter_mergeEnv_others (e u : List EnvVar) :
    (mergeEnv e u).filter (fun y => y.name ∉ u.map EnvVar.name) =
      e.filter fun y => y.name ∉ u.map EnvVar.name := by
  have hnone : u.filter (fun y => y.name ∉ u.map EnvVar.name) = [] :=
    List.filter_eq_nil_iff.mpr fun y hy => by simpa using ⟨y, hy, rfl⟩
  have hmerge := filter_mergeEnv (fun n => n ∉ u.map EnvVar.name) e u
  rw [hmerge, hnone]
  rfl

/-- The only update of its name is the last one. -/
theorem lastUpdate?_of_mem {u : List EnvVar} {x : EnvVar} (hdistinct : (u.map EnvVar.name).Nodup)
    (hx : x ∈ u) : lastUpdate? u x.name = some x := by
  induction u with
  | nil => cases hx
  | cons y u ih =>
    obtain ⟨hy, hu⟩ := List.nodup_cons.mp hdistinct
    rw [lastUpdate?_cons]
    rcases List.mem_cons.mp hx with rfl | hx
    · rw [lastUpdate?_eq_none_iff.mpr hy, if_pos rfl]
      rfl
    · rw [ih hu hx]
      rfl

/-- **A name that was given** has the value that was given, in its first variable. -/
theorem find?_mergeEnv_given {args : List String} (h : Assigns [] args) (e : List EnvVar) :
    ∀ arg ∈ args,
      (mergeEnv e (args.map givenVar)).find? (fun y => y.name = givenKey arg) =
        some (givenVar arg) := by
  intro arg harg
  have hdistinct : ((args.map givenVar).map EnvVar.name).Nodup := names_givenVars args ▸ h.distinct
  have hlast : lastUpdate? (args.map givenVar) (givenKey arg) = some (givenVar arg) :=
    lastUpdate?_of_mem hdistinct (List.mem_map_of_mem harg)
  rw [find?_mergeEnv, hlast]
  rfl

/-- **A name that was not given** keeps its variables, in their order. -/
theorem filter_mergeEnv_given (args : List String) (e : List EnvVar) :
    (mergeEnv e (args.map givenVar)).filter (fun y => y.name ∉ args.map givenKey) =
      e.filter fun y => y.name ∉ args.map givenKey := by
  have h := filter_mergeEnv_others e (args.map givenVar)
  rw [names_givenVars] at h
  exact h

end InnerLoop
