/-!
# Cutting text at a separator

- `splitFirst`: what stands before and after the first separator.
- `splitAll`: the pieces between all separators; there is always at least one.
- `join`: pieces put together with a separator between them.
-/

namespace InnerLoop.Text

/-- The text before and after the first `sep`, if there is one. -/
def splitFirst (sep : Char) : List Char → Option (List Char × List Char)
  | [] => none
  | c :: r =>
    if c = sep then some ([], r)
    else (splitFirst sep r).map fun p => (c :: p.1, p.2)

/-- The pieces of the text between its separators. -/
def splitAll (sep : Char) : List Char → List (List Char)
  | [] => [[]]
  | c :: r =>
    if c = sep then [] :: splitAll sep r
    else match splitAll sep r with
      | [] => [[c]]
      | piece :: pieces => (c :: piece) :: pieces

/-- The pieces with `sep` between them. -/
def join (sep : String) : List String → String
  | [] => ""
  | [s] => s
  | s :: r => s ++ sep ++ join sep r

/-- `splitAll` on strings. -/
def pieces (sep : Char) (s : String) : List String :=
  (splitAll sep s.toList).map String.ofList

theorem splitFirst_eq_some_iff {sep : Char} {s before after : List Char} :
    splitFirst sep s = some (before, after) ↔ s = before ++ sep :: after ∧ sep ∉ before := by
  induction s generalizing before with
  | nil => simp [splitFirst]
  | cons c r ih =>
    by_cases hc : c = sep
    · subst hc
      cases before with
      | nil => simp [splitFirst]
      | cons b bs =>
        simp only [splitFirst, if_true, List.cons_append]
        constructor
        · simp
        · rintro ⟨h, hn⟩
          injection h with h₁ h₂
          exact absurd (h₁ ▸ List.mem_cons_self) hn
    · cases before with
      | nil =>
        simp only [splitFirst, if_neg hc, List.nil_append]
        constructor
        · simp [Option.map_eq_some_iff]
        · rintro ⟨h, -⟩
          injection h with h₁ h₂
          exact absurd h₁ hc
      | cons b bs =>
        simp only [splitFirst, if_neg hc, Option.map_eq_some_iff, Prod.exists, Prod.mk.injEq,
          List.cons.injEq, List.cons_append, List.mem_cons, not_or]
        constructor
        · rintro ⟨x, y, h, ⟨rfl, rfl⟩, rfl⟩
          obtain ⟨rfl, hn⟩ := ih.1 h
          exact ⟨⟨rfl, rfl⟩, fun h => hc h.symm, hn⟩
        · rintro ⟨⟨rfl, rfl⟩, -, hn⟩
          exact ⟨bs, after, ih.2 ⟨rfl, hn⟩, ⟨rfl, rfl⟩, rfl⟩

theorem splitFirst_eq_none_iff {sep : Char} {s : List Char} :
    splitFirst sep s = none ↔ sep ∉ s := by
  induction s with
  | nil => simp [splitFirst]
  | cons c r ih =>
    by_cases hc : c = sep
    · simp [splitFirst, hc]
    · simp [splitFirst, hc, ih, Ne.symm hc]

end InnerLoop.Text
