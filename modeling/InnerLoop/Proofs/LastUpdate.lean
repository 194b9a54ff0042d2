import InnerLoop.Proofs.Variables
import Mathlib.Data.List.Nodup

/-!
# The last update of a name

Updates are made one after another, in a list that changes under them. What they come to in the end
can be read off at once: every name is settled by its last update, in the first place of the name.

- `lastUpdate?`: the last update of a name.
- `mergeEnv_cons`: what updates do to the variable in front, from which all else follows.
- `updatedInPlace`, `newVariables`: the two parts of the list in the end.
- `mergeEnv_law`: **what merging comes to**, that names stay distinct, and how merging twice goes.
-/

namespace InnerLoop

/-! ## The last update -/

/-- The last update of a name, if there is one. -/
def lastUpdate? (updates : List EnvVar) (name : String) : Option EnvVar :=
  updates.reverse.find? fun x => x.name = name

section

variable {u : List EnvVar} {x : EnvVar} {m n : String}

theorem lastUpdate?_cons (x : EnvVar) (u : List EnvVar) (n : String) :
    lastUpdate? (x :: u) n = (lastUpdate? u n).or (if x.name = n then some x else none) := by
  unfold lastUpdate?
  rw [List.reverse_cons, List.find?_append, List.find?_singleton]
  simp only [decide_eq_true_eq]

theorem lastUpdate?_eq_none_iff : lastUpdate? u n = none ↔ n ∉ u.map EnvVar.name := by
  unfold lastUpdate?
  rw [List.find?_eq_none]
  simp

theorem name_of_lastUpdate? (h : lastUpdate? u n = some x) : x.name = n := by
  simpa using List.find?_some h

/-- Updates of another name do not matter. -/
theorem lastUpdate?_others (h : m ≠ n) (u : List EnvVar) :
    lastUpdate? (u.filter fun y => y.name ≠ n) m = lastUpdate? u m := by
  induction u with
  | nil => rfl
  | cons y u ih =>
    by_cases hy : y.name = n
    · have hm : ¬ y.name = m := fun hm => h (hm.symm.trans hy)
      rw [List.filter_cons_of_neg (by simpa using hy), ih, lastUpdate?_cons, if_neg hm,
        Option.or_none]
    · rw [List.filter_cons_of_pos (by simpa using hy), lastUpdate?_cons, ih, lastUpdate?_cons]

/-- The names of the updates of other names. -/
theorem names_others (u : List EnvVar) (n : String) :
    (u.filter fun y => y.name ≠ n).map EnvVar.name =
      (u.map EnvVar.name).filter fun m => m ≠ n := by
  rw [List.filter_map]
  rfl

theorem lastUpdate?_others_self (u : List EnvVar) (n : String) :
    lastUpdate? (u.filter fun y => y.name ≠ n) n = none := by
  rw [lastUpdate?_eq_none_iff, names_others]
  simp

/-- What a variable in front comes to bears its name. -/
theorem name_getD_lastUpdate? (u : List EnvVar) (x : EnvVar) :
    ((lastUpdate? u x.name).getD x).name = x.name := by
  cases h : lastUpdate? u x.name with
  | none => rfl
  | some y => exact name_of_lastUpdate? h

end

/-! ## From front to back -/

/-- **The variable in front** is settled by the last update of its name; the others are merged with
the updates of other names. The induction is on the updates, each of which goes into the front or
behind it. -/
theorem mergeEnv_cons (x : EnvVar) (r u : List EnvVar) :
    mergeEnv (x :: r) u =
      (lastUpdate? u x.name).getD x :: mergeEnv r (u.filter fun y => y.name ≠ x.name) := by
  induction u generalizing x r with
  | nil => rfl
  | cons y u ih =>
    show mergeEnv (putEnv y (x :: r)) u = _
    rw [lastUpdate?_cons]
    by_cases h : x.name = y.name
    · rw [putEnv_cons_of_eq h, ih, List.filter_cons_of_neg (by simpa using h.symm), h, if_pos rfl]
      cases lastUpdate? u y.name with
      | none => rfl
      | some z => rfl
    · have hyx : ¬ y.name = x.name := fun hyx => h hyx.symm
      rw [putEnv_cons_of_ne h, ih, List.filter_cons_of_pos (by simpa using hyx), if_neg hyx,
        Option.or_none]
      rfl

/-- Merged into nothing, each name takes the place of its first update and is set to its last. The
induction takes all updates of the first name off. -/
theorem mergeEnv_nil (u : List EnvVar) :
    mergeEnv [] u = (u.map EnvVar.name).eraseDups.filterMap (lastUpdate? u) := by
  match u with
  | [] => rfl
  | y :: u =>
    have hnames : (u.map EnvVar.name).filter (fun m => !m == y.name) =
        (u.filter fun z => z.name ≠ y.name).map EnvVar.name := by
      rw [names_others]
      exact List.filter_congr fun m _ => by simp [beq_eq_decide]
    have hfirst : lastUpdate? (y :: u) y.name = some ((lastUpdate? u y.name).getD y) := by
      rw [lastUpdate?_cons, if_pos rfl]
      cases lastUpdate? u y.name with
      | none => rfl
      | some z => rfl
    have hrest : ∀ m ∈ ((u.filter fun z => z.name ≠ y.name).map EnvVar.name).eraseDups,
        lastUpdate? (u.filter fun z => z.name ≠ y.name) m = lastUpdate? (y :: u) m := by
      intro m hm
      rw [List.mem_eraseDups, names_others, List.mem_filter] at hm
      have hne : m ≠ y.name := by simpa using hm.2
      rw [lastUpdate?_others hne, lastUpdate?_cons, if_neg hne.symm, Option.or_none]
    calc mergeEnv [] (y :: u)
        = (lastUpdate? u y.name).getD y :: mergeEnv [] (u.filter fun z => z.name ≠ y.name) :=
          mergeEnv_cons y [] u
      _ = (lastUpdate? u y.name).getD y ::
            ((u.filter fun z => z.name ≠ y.name).map EnvVar.name).eraseDups.filterMap
              (lastUpdate? (y :: u)) := by
          rw [mergeEnv_nil (u.filter fun z => z.name ≠ y.name), List.filterMap_congr hrest]
      _ = ((y :: u).map EnvVar.name).eraseDups.filterMap (lastUpdate? (y :: u)) := by
          rw [List.map_cons, List.eraseDups_cons, hnames, List.filterMap_cons_some hfirst]
termination_by u.length
decreasing_by exact Nat.lt_succ_of_le (List.length_filter_le _ _)

/-! ## The two parts -/

/-- The variables with the first one of each name replaced whole by the last update of the name. -/
def updatedInPlace (existing updates : List EnvVar) : List EnvVar :=
  existing.mapIdx fun i x =>
    if x.name ∈ (existing.take i).map EnvVar.name then x else (lastUpdate? updates x.name).getD x

/-- The last updates of the names that no variable bears, in the order in which these names first
occur. -/
def newVariables (existing updates : List EnvVar) : List EnvVar :=
  ((updates.map EnvVar.name).filter fun n => n ∉ existing.map EnvVar.name).eraseDups.filterMap
    (lastUpdate? updates)

theorem updatedInPlace_cons (x : EnvVar) (r u : List EnvVar) :
    updatedInPlace (x :: r) u = (lastUpdate? u x.name).getD x ::
      updatedInPlace r (u.filter fun y => y.name ≠ x.name) := by
  unfold updatedInPlace
  rw [List.mapIdx_cons]
  refine congrArg₂ List.cons (if_neg List.not_mem_nil) (List.mapIdx_eq_mapIdx_iff.mpr ?_)
  intro i hi
  have hbefore : r[i].name ∈ ((x :: r).take (i + 1)).map EnvVar.name ↔
      r[i].name = x.name ∨ r[i].name ∈ (r.take i).map EnvVar.name := by
    rw [List.take_succ_cons, List.map_cons, List.mem_cons]
  by_cases hname : r[i].name = x.name
  · -- A later variable of the name stays, on the other side because no update is left for it.
    rw [if_pos (hbefore.mpr (.inl hname)), hname, lastUpdate?_others_self]
    split <;> rfl
  · rw [lastUpdate?_others hname]
    exact if_congr (hbefore.trans (or_iff_right hname)) rfl rfl

theorem newVariables_cons (x : EnvVar) (r u : List EnvVar) :
    newVariables (x :: r) u = newVariables r (u.filter fun y => y.name ≠ x.name) := by
  have hnames : (u.map EnvVar.name).filter (fun n => n ∉ (x :: r).map EnvVar.name) =
      ((u.filter fun y => y.name ≠ x.name).map EnvVar.name).filter
        fun n => n ∉ r.map EnvVar.name := by
    rw [names_others, List.filter_filter]
    refine List.filter_congr fun n _ => ?_
    rw [← Bool.decide_and, decide_eq_decide, List.map_cons, List.mem_cons, not_or, and_comm]
  unfold newVariables
  rw [hnames]
  refine List.filterMap_congr fun n hn => ?_
  rw [List.mem_eraseDups, names_others, List.mem_filter, List.mem_filter] at hn
  have hne : n ≠ x.name := by simpa using hn.1.2
  exact (lastUpdate?_others hne u).symm

/-- Merging, told at once. -/
theorem mergeEnv_eq_append (e u : List EnvVar) :
    mergeEnv e u = updatedInPlace e u ++ newVariables e u := by
  induction e generalizing u with
  | nil =>
    have hall : (u.map EnvVar.name).filter (fun n => n ∉ ([] : List EnvVar).map EnvVar.name) =
        u.map EnvVar.name := List.filter_eq_self.mpr fun n _ => by simp
    unfold newVariables
    rw [hall, mergeEnv_nil]
    rfl
  | cons x r ih =>
    rw [mergeEnv_cons, ih, updatedInPlace_cons, newVariables_cons]
    rfl

/-! ## Names that are distinct -/

theorem nodup_names_putEnv {x : EnvVar} {l : List EnvVar} (h : (l.map EnvVar.name).Nodup) :
    ((putEnv x l).map EnvVar.name).Nodup := by
  induction l with
  | nil => exact List.nodup_singleton x.name
  | cons e r ih =>
    obtain ⟨he, hr⟩ := List.nodup_cons.mp h
    by_cases hname : e.name = x.name
    · rw [putEnv_cons_of_eq hname, List.map_cons, List.nodup_cons]
      exact ⟨hname ▸ he, hr⟩
    · rw [putEnv_cons_of_ne hname, List.map_cons, List.nodup_cons, mem_names_putEnv_iff, not_or]
      exact ⟨⟨hname, he⟩, ih hr⟩

theorem nodup_names_mergeEnv {e : List EnvVar} (h : (e.map EnvVar.name).Nodup)
    (u : List EnvVar) : ((mergeEnv e u).map EnvVar.name).Nodup := by
  induction u generalizing e with
  | nil => exact h
  | cons x u ih => exact ih (nodup_names_putEnv h)

/-- Updates of distinct names, merged into nothing, are there as they were. -/
theorem mergeEnv_nil_of_nodup {u : List EnvVar} (h : (u.map EnvVar.name).Nodup) :
    mergeEnv [] u = u := by
  induction u with
  | nil => rfl
  | cons y u ih =>
    obtain ⟨hy, hu⟩ := List.nodup_cons.mp h
    have hothers : (u.filter fun z => z.name ≠ y.name) = u := by
      refine List.filter_eq_self.mpr fun z hz => decide_eq_true fun hname => ?_
      exact hy (hname ▸ List.mem_map_of_mem hz)
    show mergeEnv [y] u = y :: u
    rw [mergeEnv_cons, lastUpdate?_eq_none_iff.mpr hy, hothers, ih hu]
    rfl

/-! ## Updates of updates -/

/-- Only the variables of some names, after an update. -/
theorem filter_putEnv (p : String → Bool) (x : EnvVar) (l : List EnvVar) :
    (putEnv x l).filter (fun y => p y.name) =
      if p x.name then putEnv x (l.filter fun y => p y.name) else l.filter fun y => p y.name := by
  induction l with
  | nil => exact List.filter_cons
  | cons e r ih =>
    rw [List.filter_cons]
    by_cases he : e.name = x.name
    · rw [putEnv_cons_of_eq he, List.filter_cons, he]
      split
      · exact (putEnv_cons_of_eq he _).symm
      · rfl
    · rw [putEnv_cons_of_ne he, List.filter_cons, ih]
      by_cases hp : p e.name
      · rw [if_pos hp, if_pos hp, putEnv_cons_of_ne he]
        split <;> rfl
      · rw [if_neg hp, if_neg hp]

/-- Names can be left out before merging as well as after it. -/
theorem filter_mergeEnv (p : String → Bool) (u v : List EnvVar) :
    (mergeEnv u v).filter (fun y => p y.name) =
      mergeEnv (u.filter fun y => p y.name) (v.filter fun y => p y.name) := by
  induction v generalizing u with
  | nil => rfl
  | cons x v ih =>
    show (mergeEnv (putEnv x u) v).filter _ = _
    rw [ih, filter_putEnv, List.filter_cons]
    split <;> rfl

/-- Where names are distinct, the place of a name is the last one too. -/
theorem lastUpdate?_putEnv {l : List EnvVar} (h : (l.map EnvVar.name).Nodup) (x : EnvVar)
    (n : String) :
    lastUpdate? (putEnv x l) n = if x.name = n then some x else lastUpdate? l n := by
  induction l with
  | nil => exact lastUpdate?_cons x [] n
  | cons e r ih =>
    obtain ⟨he, hr⟩ := List.nodup_cons.mp h
    by_cases hname : e.name = x.name
    · rw [putEnv_cons_of_eq hname, lastUpdate?_cons, lastUpdate?_cons, hname]
      by_cases hx : x.name = n
      · have hnone : lastUpdate? r n = none :=
          lastUpdate?_eq_none_iff.mpr (hname.trans hx ▸ he)
        rw [if_pos hx, if_pos hx, hnone]
        rfl
      · rw [if_neg hx, if_neg hx, if_neg hx]
    · rw [putEnv_cons_of_ne hname, lastUpdate?_cons, lastUpdate?_cons, ih hr]
      by_cases hx : x.name = n
      · rw [if_pos hx, if_pos hx]
        rfl
      · rw [if_neg hx, if_neg hx]

theorem lastUpdate?_mergeEnv {u : List EnvVar} (h : (u.map EnvVar.name).Nodup)
    (v : List EnvVar) (n : String) :
    lastUpdate? (mergeEnv u v) n = (lastUpdate? v n).or (lastUpdate? u n) := by
  induction v generalizing u with
  | nil => rfl
  | cons x v ih =>
    show lastUpdate? (mergeEnv (putEnv x u) v) n = _
    rw [ih (nodup_names_putEnv h), lastUpdate?_putEnv h, lastUpdate?_cons, Option.or_assoc]
    by_cases hx : x.name = n
    · rw [if_pos hx, if_pos hx]
      rfl
    · rw [if_neg hx, if_neg hx]
      rfl

/-- **Updates compose** if those that are made first have distinct names. -/
theorem mergeEnv_comp {u : List EnvVar} (h : (u.map EnvVar.name).Nodup) (e v : List EnvVar) :
    mergeEnv (mergeEnv e u) v = mergeEnv e (mergeEnv u v) := by
  induction e generalizing u v with
  | nil => rw [mergeEnv_nil_of_nodup h, mergeEnv_nil_of_nodup (nodup_names_mergeEnv h v)]
  | cons x r ih =>
    have hothers : ((u.filter fun y => y.name ≠ x.name).map EnvVar.name).Nodup := by
      rw [names_others]
      exact h.filter _
    have hfront : (lastUpdate? v x.name).getD ((lastUpdate? u x.name).getD x) =
        (lastUpdate? (mergeEnv u v) x.name).getD x := by
      rw [lastUpdate?_mergeEnv h]
      cases lastUpdate? v x.name with
      | none => rfl
      | some z => rfl
    have hbehind := filter_mergeEnv (fun m => m ≠ x.name) u v
    rw [mergeEnv_cons, mergeEnv_cons, mergeEnv_cons, name_getD_lastUpdate?, hfront, ih hothers,
      hbehind]

/-! ## The law -/

/-- **What merging comes to**: the variables in their order, the first of each name replaced whole
by the last update of it, and then the names that are new, in the order in which they first occur,
each with its last update. So distinct names stay distinct; merging the same updates again changes
nothing; and updates of updates are merged alike, if the names in the former are distinct. -/
theorem mergeEnv_law (e u v : List EnvVar) :
    mergeEnv e u = updatedInPlace e u ++ newVariables e u ∧
    ((e.map EnvVar.name).Nodup → ((mergeEnv e u).map EnvVar.name).Nodup) ∧
    mergeEnv (mergeEnv e u) u = mergeEnv e u ∧
    ((u.map EnvVar.name).Nodup → mergeEnv (mergeEnv e u) v = mergeEnv e (mergeEnv u v)) :=
  ⟨mergeEnv_eq_append e u, fun h => nodup_names_mergeEnv h u, mergeEnv_mergeEnv e u,
    fun h => mergeEnv_comp h e v⟩

/-- Names that repeat, in the updates and in the variables. -/
theorem mergeEnv_law_of_repeated_updates :
    mergeEnv [.plain "A" "1", .plain "B" "2"] [.plain "C" "3", .plain "A" "4", .plain "C" "5"] =
      [.plain "A" "4", .plain "B" "2", .plain "C" "5"] ∧
    ((mergeEnv [.plain "A" "1", .plain "B" "2"]
      [.plain "C" "3", .plain "A" "4", .plain "C" "5"]).map EnvVar.name).Nodup ∧
    mergeEnv (mergeEnv [.plain "A" "1", .plain "A" "2"] [.plain "B" "3", .plain "A" "4"])
        [.plain "A" "6", .plain "A" "7", .plain "D" "8"] =
      mergeEnv [.plain "A" "1", .plain "A" "2"]
        (mergeEnv [.plain "B" "3", .plain "A" "4"]
          [.plain "A" "6", .plain "A" "7", .plain "D" "8"]) :=
  ⟨by decide,
    (mergeEnv_law [.plain "A" "1", .plain "B" "2"]
      [.plain "C" "3", .plain "A" "4", .plain "C" "5"] []).2.1 (by decide),
    (mergeEnv_law [.plain "A" "1", .plain "A" "2"] [.plain "B" "3", .plain "A" "4"]
      [.plain "A" "6", .plain "A" "7", .plain "D" "8"]).2.2.2 (by decide)⟩

end InnerLoop
