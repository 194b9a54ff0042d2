import InnerLoop.Workload.Env
import Mathlib.Data.List.Induction

/-!
# Merging variables

An update goes into the first place of its name, or to the end. So where a name stands is settled by
the first update of that name, and only what it is set to can change after that.

- `putEnv_putEnv_of_eq`, `putEnv_comm`: two updates in a row, of one name and of two names.
- `mergeEnv_mergeEnv`: **updates that are made again change nothing**, whatever names they repeat.
-/

namespace InnerLoop

/-! ## Two updates -/

theorem putEnv_cons_of_eq {u e : EnvVar} (h : e.name = u.name) (r : List EnvVar) :
    putEnv u (e :: r) = u :: r := if_pos h

theorem putEnv_cons_of_ne {u e : EnvVar} (h : e.name ≠ u.name) (r : List EnvVar) :
    putEnv u (e :: r) = e :: putEnv u r := if_neg h

/-- Of two updates of one name only the second counts. -/
theorem putEnv_putEnv_of_eq {u v : EnvVar} (h : v.name = u.name) (l : List EnvVar) :
    putEnv u (putEnv v l) = putEnv u l := by
  induction l with
  | nil => exact putEnv_cons_of_eq h []
  | cons e r ih =>
    by_cases he : e.name = v.name
    · rw [putEnv_cons_of_eq he, putEnv_cons_of_eq h, putEnv_cons_of_eq (he.trans h)]
    · have hu : e.name ≠ u.name := fun hu => he (hu.trans h.symm)
      rw [putEnv_cons_of_ne he, putEnv_cons_of_ne hu, putEnv_cons_of_ne hu, ih]

/-- Updates of two names may change places if the second of them has its place already. -/
theorem putEnv_comm {u v : EnvVar} (h : u.name ≠ v.name) {l : List EnvVar}
    (hv : v.name ∈ l.map EnvVar.name) : putEnv v (putEnv u l) = putEnv u (putEnv v l) := by
  induction l with
  | nil => cases hv
  | cons e r ih =>
    by_cases heu : e.name = u.name
    · have hev : e.name ≠ v.name := heu ▸ h
      rw [putEnv_cons_of_eq heu, putEnv_cons_of_ne hev, putEnv_cons_of_ne h, putEnv_cons_of_eq heu]
    · by_cases hev : e.name = v.name
      · rw [putEnv_cons_of_ne heu, putEnv_cons_of_eq hev, putEnv_cons_of_eq hev,
          putEnv_cons_of_ne h.symm]
      · have hr : v.name ∈ r.map EnvVar.name :=
          (List.mem_cons.mp hv).resolve_left fun heq => hev heq.symm
        rw [putEnv_cons_of_ne heu, putEnv_cons_of_ne hev, putEnv_cons_of_ne hev,
          putEnv_cons_of_ne heu, ih hr]

theorem mem_names_putEnv_iff {u : EnvVar} {l : List EnvVar} {n : String} :
    n ∈ (putEnv u l).map EnvVar.name ↔ n = u.name ∨ n ∈ l.map EnvVar.name := by
  induction l with
  | nil => simp [putEnv]
  | cons e r ih =>
    by_cases he : e.name = u.name
    · rw [putEnv_cons_of_eq he, List.map_cons, List.map_cons, List.mem_cons, List.mem_cons, he,
        or_self_left]
    · rw [putEnv_cons_of_ne he, List.map_cons, List.map_cons, List.mem_cons, List.mem_cons, ih]
      exact or_left_comm

/-! ## All updates -/

theorem mem_names_mergeEnv_iff {e u : List EnvVar} {n : String} :
    n ∈ (mergeEnv e u).map EnvVar.name ↔ n ∈ u.map EnvVar.name ∨ n ∈ e.map EnvVar.name := by
  induction u generalizing e with
  | nil => simp [mergeEnv]
  | cons x u ih =>
    show n ∈ (mergeEnv (putEnv x e) u).map EnvVar.name ↔ _
    rw [ih, mem_names_putEnv_iff, List.map_cons, List.mem_cons, or_assoc]
    exact or_left_comm

theorem mergeEnv_concat (e u : List EnvVar) (x : EnvVar) :
    mergeEnv e (u ++ [x]) = putEnv x (mergeEnv e u) := by
  unfold mergeEnv
  rw [List.foldl_append]
  rfl

/-- An update that is made once more in the end does not have to be made before updates that only
go into places that are there. -/
theorem putEnv_mergeEnv_putEnv {e u : List EnvVar} (x : EnvVar)
    (h : ∀ y ∈ u, y.name ∈ e.map EnvVar.name) :
    putEnv x (mergeEnv (putEnv x e) u) = putEnv x (mergeEnv e u) := by
  induction u generalizing e with
  | nil => exact putEnv_putEnv_of_eq rfl e
  | cons y u ih =>
    show putEnv x (mergeEnv (putEnv y (putEnv x e)) u) = putEnv x (mergeEnv (putEnv y e) u)
    by_cases hname : x.name = y.name
    · rw [putEnv_putEnv_of_eq hname]
    · rw [putEnv_comm hname (h y List.mem_cons_self)]
      refine ih fun z hz => ?_
      exact mem_names_putEnv_iff.mpr (.inr (h z (List.mem_cons_of_mem y hz)))

/-- **Updates that are made again change nothing.** The induction takes the last update off: it is
the one that has the last word. -/
theorem mergeEnv_mergeEnv (e u : List EnvVar) : mergeEnv (mergeEnv e u) u = mergeEnv e u := by
  induction u using List.reverseRecOn with
  | nil => rfl
  | append_singleton u x ih =>
    have hplaces : ∀ y ∈ u, y.name ∈ (mergeEnv e u).map EnvVar.name := fun y hy =>
      mem_names_mergeEnv_iff.mpr (.inl (List.mem_map_of_mem hy))
    calc mergeEnv (mergeEnv e (u ++ [x])) (u ++ [x])
        = putEnv x (mergeEnv (putEnv x (mergeEnv e u)) u) := by
          rw [mergeEnv_concat, mergeEnv_concat]
      _ = putEnv x (mergeEnv (mergeEnv e u) u) := putEnv_mergeEnv_putEnv x hplaces
      _ = mergeEnv e (u ++ [x]) := by rw [ih, mergeEnv_concat]

end InnerLoop
