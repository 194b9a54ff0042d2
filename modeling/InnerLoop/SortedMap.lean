/-!
# Finite maps kept in key order

A `SortedMap` lists its entries with strictly ascending keys, so two maps with the same entries are
equal, and going through a map visits its keys in order.

- `find?`, `insert`, `erase`, `union`, `filter`, `ofList`, `keys`: the operations.
- `find?_insert`: an insertion sets its own key and leaves the others.
- `find?_erase`: a removal clears its own key and leaves the others.
- `find?_filter`, `find?_union`, `mem_keys_iff`: what is found after a selection and in a union, and
  under which keys; `mem_of_find?_ofList`, what is found in a map that was made of a list.
- `ext`: maps that answer every look-up alike are equal; `ofList_entries`, by which a map is made
  again from its entries.
-/

namespace InnerLoop

universe u v

/-- The keys of `l` ascend strictly. -/
abbrev Ascending {κ : Type u} {α : Type v} [Ord κ] (l : List (κ × α)) : Prop :=
  l.Pairwise fun a b => compare a.1 b.1 = .lt

/-- A finite map, its entries in the order of their keys. -/
structure SortedMap (κ : Type u) (α : Type v) [Ord κ] where
  /-- The entries. -/
  entries : List (κ × α)
  /-- They stand in strictly ascending order of the keys. -/
  ascending : Ascending entries
  deriving DecidableEq

namespace SortedMap

variable {κ : Type u} {α : Type v} [Ord κ]

/-- The value under `k` in an ascending list. -/
def look (k : κ) : List (κ × α) → Option α
  | [] => none
  | (k', v) :: r =>
    match compare k k' with
    | .lt => none
    | .eq => some v
    | .gt => look k r

/-- Puts `v` under `k` into an ascending list. -/
def put (k : κ) (v : α) : List (κ × α) → List (κ × α)
  | [] => [(k, v)]
  | (k', v') :: r =>
    match compare k k' with
    | .lt => (k, v) :: (k', v') :: r
    | .eq => (k, v) :: r
    | .gt => (k', v') :: put k v r

theorem fst_mem_put {k : κ} {v : α} {l : List (κ × α)} {e : κ × α} (h : e ∈ put k v l) :
    e = (k, v) ∨ e ∈ l := by
  induction l with
  | nil => simpa [put] using h
  | cons a r ih =>
    obtain ⟨k', v'⟩ := a
    simp only [put] at h
    split at h <;> simp only [List.mem_cons] at h ⊢
    · exact h
    · rcases h with h | h
      · exact .inl h
      · exact .inr (.inr h)
    · rcases h with h | h
      · exact .inr (.inl h)
      · exact (ih h).imp_right .inr

section Laws

variable [Std.TransOrd κ] [Std.LawfulEqOrd κ]

theorem ascending_put {k : κ} {v : α} {l : List (κ × α)} (h : Ascending l) :
    Ascending (put k v l) := by
  induction l with
  | nil => simp [put, Ascending]
  | cons a r ih =>
    obtain ⟨k', v'⟩ := a
    obtain ⟨ha, hr⟩ := List.pairwise_cons.1 h
    simp only [put]
    split
    next hlt =>
      refine List.pairwise_cons.2 ⟨fun e he => ?_, h⟩
      rcases List.mem_cons.1 he with rfl | he
      · exact hlt
      · exact Std.TransCmp.lt_trans hlt (ha e he)
    next heq =>
      obtain rfl := Std.LawfulEqOrd.eq_of_compare heq
      exact List.pairwise_cons.2 ⟨ha, hr⟩
    next hgt =>
      refine List.pairwise_cons.2 ⟨fun e he => ?_, ih hr⟩
      rcases fst_mem_put he with rfl | he
      · exact Std.OrientedCmp.lt_of_gt hgt
      · exact ha e he

theorem look_put {k j : κ} {v : α} {l : List (κ × α)} (h : Ascending l) :
    look j (put k v l) = if compare j k = .eq then some v else look j l := by
  induction l with
  | nil => simp only [put, look]; split <;> simp_all
  | cons a r ih =>
    obtain ⟨k', v'⟩ := a
    obtain ⟨ha, hr⟩ := List.pairwise_cons.1 h
    simp only [put]
    split
    next hlt =>
      simp only [look]
      split
      next hj =>
        simp only [Std.TransCmp.lt_trans hj hlt, hj, reduceCtorEq, if_false]
      next hj => simp only [hj, if_true]
      next hj => simp only [hj, reduceCtorEq, if_false]
    next heq =>
      obtain rfl := Std.LawfulEqOrd.eq_of_compare heq
      simp only [look]
      split <;> simp_all
    next hgt =>
      simp only [look, ih hr]
      split
      next hj =>
        simp only [Std.TransCmp.lt_trans hj (Std.OrientedCmp.lt_of_gt hgt), reduceCtorEq, if_false]
      next hj =>
        obtain rfl := Std.LawfulEqOrd.eq_of_compare hj
        simp only [Std.OrientedCmp.lt_of_gt hgt, reduceCtorEq, if_false]
      next hj => rfl

theorem look_eq_some_iff {k : κ} {v : α} {l : List (κ × α)} (h : Ascending l) :
    look k l = some v ↔ (k, v) ∈ l := by
  induction l with
  | nil => simp [look]
  | cons a r ih =>
    obtain ⟨k', v'⟩ := a
    obtain ⟨ha, hr⟩ := List.pairwise_cons.1 h
    have below : ∀ {x}, (k, x) ∈ r → compare k k' = .gt := fun hx =>
      Std.OrientedCmp.gt_of_lt (ha _ hx)
    simp only [look, List.mem_cons, Prod.mk.injEq]
    split
    next hlt =>
      constructor
      · simp
      · rintro (⟨rfl, -⟩ | hm)
        · exact absurd (hlt.symm.trans Std.compare_self) (by decide)
        · rw [below hm] at hlt
          exact absurd hlt (by decide)
    next heq =>
      obtain rfl := Std.LawfulEqOrd.eq_of_compare heq
      constructor
      · rintro ⟨⟩; exact .inl ⟨rfl, rfl⟩
      · rintro (⟨-, rfl⟩ | hm)
        · rfl
        · rw [below hm] at heq
          exact absurd heq (by decide)
    next hgt =>
      rw [ih hr]
      constructor
      · exact .inr
      · rintro (⟨rfl, -⟩ | hm)
        · simp [Std.ReflCmp.compare_self] at hgt
        · exact hm

theorem ext_look {l m : List (κ × α)} (hl : Ascending l) (hm : Ascending m)
    (h : ∀ k, look k l = look k m) : l = m := by
  have mem : ∀ e, e ∈ l ↔ e ∈ m := fun (k, v) => by
    rw [← look_eq_some_iff hl, ← look_eq_some_iff hm, h]
  induction l generalizing m with
  | nil =>
    cases m with
    | nil => rfl
    | cons e r => exact absurd ((mem e).2 List.mem_cons_self) List.not_mem_nil
  | cons a r ih =>
    cases m with
    | nil => exact absurd ((mem a).1 List.mem_cons_self) List.not_mem_nil
    | cons b s =>
      obtain ⟨ha, hr⟩ := List.pairwise_cons.1 hl
      obtain ⟨hb, hs⟩ := List.pairwise_cons.1 hm
      have hab : a = b := by
        rcases List.mem_cons.1 ((mem a).1 List.mem_cons_self) with h₁ | h₁
        · exact h₁
        rcases List.mem_cons.1 ((mem b).2 List.mem_cons_self) with h₂ | h₂
        · exact h₂.symm
        have := Std.TransCmp.lt_trans (hb _ h₁) (ha _ h₂)
        simp [Std.ReflCmp.compare_self] at this
      subst hab
      have tails : ∀ e, e ∈ r ↔ e ∈ s := fun e => by
        have fresh : ∀ {t : List (κ × α)}, (∀ x ∈ t, compare a.1 x.1 = .lt) → e ∈ t → e ≠ a := by
          rintro t ht he rfl
          simpa [Std.ReflCmp.compare_self] using ht _ he
        have := mem e
        simp only [List.mem_cons] at this
        constructor
        · intro he; exact (this.1 (.inr he)).resolve_left (fresh ha he)
        · intro he; exact (this.2 (.inr he)).resolve_left (fresh hb he)
      exact congrArg (a :: ·) (ih hr hs (fun k => by
        cases hk : look k r with
        | none =>
          cases hk' : look k s with
          | none => rfl
          | some v =>
            rw [(look_eq_some_iff hr).2 ((tails _).2 ((look_eq_some_iff hs).1 hk'))] at hk
            simp at hk
        | some v => exact ((look_eq_some_iff hs).2 ((tails _).1 ((look_eq_some_iff hr).1 hk))).symm)
        tails)

end Laws

/-! ## The operations -/

/-- The map without entries. -/
def empty : SortedMap κ α := ⟨[], List.Pairwise.nil⟩

instance : EmptyCollection (SortedMap κ α) := ⟨empty⟩
instance : Inhabited (SortedMap κ α) := ⟨empty⟩

/-- The value under `k`. -/
def find? (m : SortedMap κ α) (k : κ) : Option α := look k m.entries

/-- Whether there is a value under `k`. -/
def contains (m : SortedMap κ α) (k : κ) : Bool := (m.find? k).isSome

/-- The keys, ascending. -/
def keys (m : SortedMap κ α) : List κ := m.entries.map (·.1)

/-- The values, in the order of their keys. -/
def values (m : SortedMap κ α) : List α := m.entries.map (·.2)

/-- How many entries there are. -/
def size (m : SortedMap κ α) : Nat := m.entries.length

/-- Whether there are no entries. -/
def isEmpty (m : SortedMap κ α) : Bool := m.entries.isEmpty

/-- The entries that `p` holds of. -/
def filter (m : SortedMap κ α) (p : κ → α → Bool) : SortedMap κ α :=
  ⟨m.entries.filter fun e => p e.1 e.2, m.ascending.filter _⟩

/-- The map without a value under `k`. -/
def erase (m : SortedMap κ α) (k : κ) : SortedMap κ α :=
  m.filter fun j _ => compare j k ≠ .eq

@[simp] theorem find?_empty (k : κ) : (empty : SortedMap κ α).find? k = none := rfl

section Writing

variable [Std.TransOrd κ] [Std.LawfulEqOrd κ]

/-- The map with `v` under `k`. -/
def insert (m : SortedMap κ α) (k : κ) (v : α) : SortedMap κ α :=
  ⟨put k v m.entries, ascending_put m.ascending⟩

/-- The entries of both maps; where both have a key, that of the second counts. -/
def union (m n : SortedMap κ α) : SortedMap κ α :=
  n.entries.foldl (fun m e => m.insert e.1 e.2) m

/-- The map with the entries of a list; of two with one key the later counts. -/
def ofList (l : List (κ × α)) : SortedMap κ α :=
  l.foldl (fun m e => m.insert e.1 e.2) empty

/-- The map with the one entry `v` under `k`. -/
def singleton (k : κ) (v : α) : SortedMap κ α := empty.insert k v

theorem find?_insert (m : SortedMap κ α) (k j : κ) (v : α) :
    (m.insert k v).find? j = if compare j k = .eq then some v else m.find? j :=
  look_put m.ascending

@[simp] theorem find?_insert_self (m : SortedMap κ α) (k : κ) (v : α) :
    (m.insert k v).find? k = some v := by
  simp [find?_insert, Std.ReflCmp.compare_self]

theorem find?_insert_of_ne (m : SortedMap κ α) {k j : κ} (v : α) (h : j ≠ k) :
    (m.insert k v).find? j = m.find? j := by
  simp [find?_insert, h]

theorem find?_eq_some_iff {m : SortedMap κ α} {k : κ} {v : α} :
    m.find? k = some v ↔ (k, v) ∈ m.entries :=
  look_eq_some_iff m.ascending

theorem mem_keys_iff {m : SortedMap κ α} {k : κ} : k ∈ m.keys ↔ ∃ v, m.find? k = some v := by
  constructor
  · intro h
    obtain ⟨e, he, rfl⟩ := List.mem_map.1 h
    exact ⟨e.2, find?_eq_some_iff.2 he⟩
  · rintro ⟨v, hv⟩
    exact List.mem_map.2 ⟨(k, v), find?_eq_some_iff.1 hv, rfl⟩

theorem find?_filter (m : SortedMap κ α) (p : κ → α → Bool) (k : κ) :
    (m.filter p).find? k = (m.find? k).filter (p k) := by
  apply Option.ext
  intro v
  rw [find?_eq_some_iff, Option.filter_eq_some_iff, find?_eq_some_iff]
  exact List.mem_filter

theorem find?_union (m n : SortedMap κ α) (k : κ) :
    (m.union n).find? k = (n.find? k).or (m.find? k) := by
  obtain ⟨l, hl⟩ := n
  show (l.foldl (fun m e => m.insert e.1 e.2) m).find? k = (look k l).or (m.find? k)
  induction l generalizing m with
  | nil => rfl
  | cons a r ih =>
    obtain ⟨ha, hr⟩ := List.pairwise_cons.1 hl
    -- Under a key that is not above the first one there is nothing in the rest.
    have hrest (hk : compare k a.1 ≠ .gt) : look k r = none := by
      cases hv : look k r with
      | none => rfl
      | some v =>
        exact absurd (Std.OrientedCmp.gt_of_lt (ha _ ((look_eq_some_iff hr).1 hv))) hk
    rw [List.foldl_cons, ih _ hr, find?_insert, look]
    cases hk : compare k a.1 with
    | lt => rw [hrest (by rw [hk]; decide)]; rfl
    | eq => rw [hrest (by rw [hk]; decide)]; rfl
    | gt => rfl

theorem find?_erase (m : SortedMap κ α) (k j : κ) :
    (m.erase k).find? j = if compare j k = .eq then none else m.find? j := by
  apply Option.ext
  intro v
  rw [find?_eq_some_iff]
  simp only [erase, filter, List.mem_filter, ← find?_eq_some_iff]
  by_cases h : compare j k = .eq <;> simp_all

@[ext] theorem ext {m n : SortedMap κ α} (h : ∀ k, m.find? k = n.find? k) : m = n := by
  obtain ⟨l, hl⟩ := m
  obtain ⟨l', hl'⟩ := n
  obtain rfl : l = l' := ext_look hl hl' h
  rfl

/-- What the map of a list holds is in the list. -/
theorem mem_of_find?_ofList {l : List (κ × α)} {k : κ} {v : α} (h : (ofList l).find? k = some v) :
    (k, v) ∈ l := by
  have hfold : ∀ m : SortedMap κ α, (l.foldl (fun m e => m.insert e.1 e.2) m).find? k = some v →
      (k, v) ∈ l ∨ m.find? k = some v := by
    clear h
    induction l with
    | nil => exact fun _ h => .inr h
    | cons e r ih =>
      intro m h
      rcases ih (m.insert e.1 e.2) h with hr | hm
      · exact .inl (List.mem_cons_of_mem _ hr)
      · rw [find?_insert] at hm
        split at hm
        next heq =>
          obtain rfl := Std.LawfulEqOrd.eq_of_compare heq
          cases hm
          exact .inl List.mem_cons_self
        next => exact .inr hm
  exact (hfold empty h).resolve_right (by rw [find?_empty]; exact fun hnone => nomatch hnone)

/-- A map is the map of its entries. -/
@[simp] theorem ofList_entries (m : SortedMap κ α) : ofList m.entries = m := by
  show empty.union m = m
  ext k
  rw [find?_union, find?_empty, Option.or_none]

/-- An insertion that is made again changes nothing. -/
theorem insert_insert (m : SortedMap κ α) (k : κ) (v : α) :
    (m.insert k v).insert k v = m.insert k v := by
  ext j
  rw [find?_insert]
  by_cases hj : compare j k = .eq
  · rw [if_pos hj, find?_insert, if_pos hj]
  · rw [if_neg hj]

end Writing

end SortedMap

/-- A map from names to texts, such as labels and annotations are. -/
abbrev TextMap := SortedMap String String

end InnerLoop
