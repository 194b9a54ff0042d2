import Mathlib.Data.List.Forall2
import InnerLoop.Image.Builder
import InnerLoop.Proofs.Paths
import InnerLoop.Proofs.Refusal

/-!
# Which ports are read

A port is written as a number between 1 and 65535, maybe with a plus sign and with zeros before it,
and then nothing or a slash and a protocol in any letter case. Blanks at both ends do not count. A
port that an image exposes has to have its protocol written out.

- `Numeral`, `WrittenPort`: the grammar; `Protocol.port`: the port that is meant.
- `Text.readDigits_eq_ok_iff`, `parsePortNumber_eq_ok_iff`: which numbers are read.
- `Text.intercalate_splitAll`, `Text.length_splitAll`: the pieces of a text.
- `parsePort_eq_ok_iff`: which ports are read; `parsePort_named`: the name of a port is one of them.
- `BuilderImage.ports_eq_ok_iff`: which ports of an image are read.
- `ports_follow_grammar`: **all of this together**.
-/

namespace InnerLoop

/-! ## The grammar -/

/-- Digits after at most one plus sign, with the number that they stand for. -/
inductive Numeral : List Char → Nat → Prop
  | plain {digits : List Char} (hne : digits ≠ []) (hdigits : ∀ c ∈ digits, c.isDigit = true) :
      Numeral digits (Nat.ofDigitChars 10 digits 0)
  | signed {digits : List Char} (hne : digits ≠ []) (hdigits : ∀ c ∈ digits, c.isDigit = true) :
      Numeral ('+' :: digits) (Nat.ofDigitChars 10 digits 0)

/-- The protocols that a port may have. -/
inductive Protocol where
  | tcp | udp
  deriving DecidableEq, Repr

namespace Protocol

/-- The name in small letters. -/
def lower : Protocol → String
  | tcp => "tcp"
  | udp => "udp"

/-- The name in capitals. -/
def upper : Protocol → String
  | tcp => "TCP"
  | udp => "UDP"

/-- The port of a number and a protocol. -/
def port (p : Protocol) (n : Nat) : ContainerPort where
  containerPort := n
  name := some (toString n ++ "-" ++ p.lower)
  protocol := some p.upper

end Protocol

/-- A text is the word, each letter of it small or a capital. -/
def InAnyCase (word text : List Char) : Prop :=
  List.Forall₂ (fun l c => c = l ∨ c = l.toUpper) word text

/-- A port `number[/protocol]`, with its number and its protocol. -/
inductive WrittenPort : List Char → Nat → Protocol → Prop
  | bare {number : List Char} {n : Nat} (hnumber : Numeral number n)
      (hrange : 1 ≤ n ∧ n ≤ 65535) : WrittenPort number n .tcp
  | typed {number word : List Char} {n : Nat} {p : Protocol} (hnumber : Numeral number n)
      (hrange : 1 ≤ n ∧ n ≤ 65535) (hword : InAnyCase p.lower.toList word) :
      WrittenPort (number ++ '/' :: word) n p

namespace Text

variable {limit acc n : Nat} {cs piece : List Char} {c sep : Char}

/-! ## Numbers -/

theorem isDigit_iff : c.isDigit = true ↔ '0' ≤ c ∧ c ≤ '9' := by
  rw [Char.isDigit, Bool.and_eq_true, decide_eq_true_iff, decide_eq_true_iff]
  exact Iff.rfl

theorem digitValue?_of_isDigit (h : c.isDigit = true) :
    digitValue? c = some (c.toNat - '0'.toNat) :=
  if_pos (isDigit_iff.mp h)

theorem digitValue?_of_not_isDigit (h : ¬ c.isDigit = true) : digitValue? c = none :=
  if_neg (mt isDigit_iff.mpr h)

/-- Digits that are read on from a value do not lower it. -/
theorem le_ofDigitChars (acc : Nat) (cs : List Char) : acc ≤ Nat.ofDigitChars 10 cs acc := by
  rw [Nat.ofDigitChars_eq_ofDigitChars_zero]
  calc acc ≤ 10 ^ cs.length * acc := Nat.le_mul_of_pos_left acc (Nat.pow_pos (by decide))
    _ ≤ _ := Nat.le_add_right _ _

/-- What is read on from a value: digits whose value stays within the limit. -/
theorem readDigits_eq_ok_iff {overflow : IntegerFault} (hacc : acc ≤ limit) :
    readDigits limit overflow acc cs = .ok n ↔
      (∀ c ∈ cs, c.isDigit = true) ∧ n = Nat.ofDigitChars 10 cs acc ∧ n ≤ limit := by
  induction cs generalizing acc with
  | nil =>
    rw [readDigits, Nat.ofDigitChars_nil]
    constructor
    · rintro ⟨⟩
      exact ⟨fun _ hc => absurd hc List.not_mem_nil, rfl, hacc⟩
    · rintro ⟨-, rfl, -⟩
      rfl
  | cons c r ih =>
    rw [readDigits, Nat.ofDigitChars_cons, List.forall_mem_cons, Nat.mul_comm 10 acc]
    by_cases hc : c.isDigit = true
    · rw [digitValue?_of_isDigit hc]
      dsimp only
      by_cases hle : acc * 10 + (c.toNat - '0'.toNat) ≤ limit
      · rw [if_pos hle, ih hle]
        exact ⟨fun ⟨hr, h⟩ => ⟨⟨hc, hr⟩, h⟩, fun ⟨⟨_, hr⟩, h⟩ => ⟨hr, h⟩⟩
      · rw [if_neg hle]
        refine ⟨fun h => (nomatch h), ?_⟩
        rintro ⟨-, rfl, hlimit⟩
        exact absurd (Nat.le_trans (le_ofDigitChars _ r) hlimit) hle
    · rw [digitValue?_of_not_isDigit hc]
      exact ⟨fun h => (nomatch h), fun ⟨⟨h, _⟩, _⟩ => absurd h hc⟩

/-! ## Pieces -/

/-- The pieces with the separator between them are the text again. -/
theorem intercalate_splitAll (sep : Char) (s : List Char) :
    [sep].intercalate (splitAll sep s) = s := by
  induction s with
  | nil => rfl
  | cons c r ih =>
    by_cases hc : c = sep
    · obtain ⟨piece, pieces, hr⟩ := List.exists_cons_of_ne_nil (splitAll_ne_nil sep r)
      rw [splitAll, if_pos hc, hr, List.intercalate_cons_cons, ← hr, ih, hc]
      rfl
    · obtain ⟨piece, pieces, hr, hcr⟩ := splitAll_cons_of_ne hc r
      rw [hr] at ih
      rw [hcr]
      cases pieces with
      | nil => simpa using ih
      | cons next more =>
        rw [List.intercalate_cons_cons] at ih ⊢
        exact congrArg (c :: ·) ih

/-- There is one piece more than there are separators. -/
theorem length_splitAll (sep : Char) (s : List Char) :
    (splitAll sep s).length = s.count sep + 1 := by
  induction s with
  | nil => rfl
  | cons c r ih =>
    by_cases hc : c = sep
    · rw [splitAll, if_pos hc, List.length_cons, ih, hc, List.count_cons_self]
    · obtain ⟨piece, pieces, hr, hcr⟩ := splitAll_cons_of_ne hc r
      rw [hcr, List.length_cons, List.count_cons_of_ne hc, ← ih, hr, List.length_cons]

theorem splitAll_eq_single_iff : splitAll sep cs = [piece] ↔ cs = piece ∧ sep ∉ piece := by
  constructor
  · intro h
    have hjoin := intercalate_splitAll sep cs
    rw [h] at hjoin
    exact ⟨by simpa using hjoin.symm, notMem_of_mem_splitAll (h ▸ List.mem_singleton_self piece)⟩
  · rintro ⟨rfl, hnot⟩
    exact splitAll_of_notMem hnot

theorem splitAll_eq_pair_iff {second : List Char} :
    splitAll sep cs = [piece, second] ↔ cs = piece ++ sep :: second ∧ sep ∉ piece ∧
      sep ∉ second := by
  constructor
  · intro h
    have hjoin := intercalate_splitAll sep cs
    rw [h] at hjoin
    exact ⟨by simpa [List.intercalate_cons_cons] using hjoin.symm,
      notMem_of_mem_splitAll (h ▸ List.mem_cons_self),
      notMem_of_mem_splitAll (h ▸ List.mem_cons_of_mem _ (List.mem_singleton_self second))⟩
  · rintro ⟨rfl, hpiece, hsecond⟩
    rw [splitAll_append_sep, splitAll_of_notMem hpiece, splitAll_of_notMem hsecond]
    rfl

/-- A text without blanks stays as it is. -/
theorem trim_of_noBlank (h : ∀ c ∈ cs, isBlank c = false) : trim cs = cs := by
  have hdrop : ∀ l : List Char, (∀ c ∈ l, isBlank c = false) → l.dropWhile isBlank = l := by
    intro l hl
    cases l with
    | nil => rfl
    | cons c r => exact List.dropWhile_cons_of_neg (by simp [hl c List.mem_cons_self])
  rw [trim, hdrop cs h, trimEnd, hdrop _ fun c hc => h c (List.mem_reverse.mp hc),
    List.reverse_reverse]

end Text

/-! ## Numbers and protocols of ports -/

section Parts

variable {cs word : List Char} {n : Nat} {k : Int}

theorem numeral_signed_iff : Numeral ('+' :: cs) n ↔
    cs ≠ [] ∧ (∀ c ∈ cs, c.isDigit = true) ∧ n = Nat.ofDigitChars 10 cs 0 := by
  constructor
  · rintro (⟨-, hdigits⟩ | ⟨hne, hdigits⟩)
    · exact absurd (hdigits '+' List.mem_cons_self) (by decide)
    · exact ⟨hne, hdigits, rfl⟩
  · rintro ⟨hne, hdigits, rfl⟩
    exact .signed hne hdigits

theorem numeral_plain_iff (h : cs.head? ≠ some '+') : Numeral cs n ↔
    cs ≠ [] ∧ (∀ c ∈ cs, c.isDigit = true) ∧ n = Nat.ofDigitChars 10 cs 0 := by
  constructor
  · rintro (⟨hne, hdigits⟩ | -)
    · exact ⟨hne, hdigits, rfl⟩
    · exact absurd rfl h
  · rintro ⟨hne, hdigits, rfl⟩
    exact .plain hne hdigits

/-- Each character of a numeral is a digit or a plus sign. -/
theorem Numeral.mem {c : Char} (h : Numeral cs n) (hc : c ∈ cs) : c.isDigit = true ∨ c = '+' := by
  cases h with
  | plain hne hdigits => exact .inl (hdigits c hc)
  | signed hne hdigits => exact (List.mem_cons.mp hc).symm.imp_left (hdigits c)

/-- What is read without a sign. -/
theorem readUnsigned_eq_ok_iff {limit : Nat} {digits : List Char} (hne : digits ≠ [])
    (hnumeral : ∀ m, Numeral cs m ↔ digits ≠ [] ∧ (∀ c ∈ digits, c.isDigit = true) ∧
      m = Nat.ofDigitChars 10 digits 0) :
    (Text.readDigits limit .tooLarge 0 digits).map Int.ofNat = .ok k ↔
      ∃ m, Numeral cs m ∧ m ≤ limit ∧ k = m := by
  rw [map_eq_ok_iff]
  refine exists_congr fun m => ?_
  rw [Text.readDigits_eq_ok_iff (Nat.zero_le limit), hnumeral, eq_comm (b := k)]
  exact ⟨fun ⟨⟨hdigits, hm, hle⟩, hk⟩ => ⟨⟨hne, hdigits, hm⟩, hle, hk⟩,
    fun ⟨⟨_, hdigits, hm⟩, hle, hk⟩ => ⟨⟨hdigits, hm, hle⟩, hk⟩⟩

/-- A minus sign leads no numeral. -/
theorem not_numeral_minus : ¬ Numeral ('-' :: cs) n := by
  intro h
  rcases h.mem List.mem_cons_self with hdigit | hplus
  · exact absurd hdigit (by decide)
  · exact absurd hplus (by decide)

/-- A positive number is read from its numerals. -/
theorem readInteger_eq_ok_iff {below above : Nat} (hk : 1 ≤ k) :
    Text.readInteger below above cs = .ok k ↔ ∃ m, Numeral cs m ∧ m ≤ above ∧ k = m := by
  have hsigned (r : List Char) : ∀ m, Numeral ('+' :: r) m ↔ _ := fun m => numeral_signed_iff
  have hplain {c : Char} (r : List Char) (hc : c ≠ '+') : ∀ m, Numeral (c :: r) m ↔ _ :=
    fun m => numeral_plain_iff fun h => hc (Option.some.inj h)
  rcases cs with _ | ⟨c, _ | ⟨d, r⟩⟩
  · refine ⟨fun h => (nomatch h), fun ⟨m, hm, _⟩ => ?_⟩
    exact absurd rfl ((numeral_plain_iff (by decide)).mp hm).1
  · rw [Text.readInteger]
    split
    next hsign =>
      refine ⟨fun h => (nomatch h), fun ⟨m, hm, _⟩ => ?_⟩
      rcases hsign with rfl | rfl
      · exact absurd rfl (numeral_signed_iff.mp hm).1
      · exact absurd hm not_numeral_minus
    next hsign =>
      exact readUnsigned_eq_ok_iff (List.cons_ne_nil c []) (hplain [] fun h => hsign (.inl h))
  · rw [Text.readInteger]
    · split
      next hplus =>
        subst hplus
        exact readUnsigned_eq_ok_iff (List.cons_ne_nil d r) (hsigned (d :: r))
      next hplus =>
        split
        next hminus =>
          constructor
          · intro h
            obtain ⟨m, -, hm⟩ := map_eq_ok_iff.mp h
            have hneg : -(m : Int) = k := hm
            omega
          · rintro ⟨m, hm, -⟩
            rw [hminus.1] at hm
            exact absurd hm not_numeral_minus
        next =>
          exact readUnsigned_eq_ok_iff (List.cons_ne_nil c (d :: r)) (hplain (d :: r) hplus)
    · exact fun h => List.cons_ne_nil d r h

/-- The number of a port is read from its numerals. -/
theorem parsePortNumber_eq_ok_iff :
    parsePortNumber cs = .ok k ↔ ∃ m, Numeral cs m ∧ (1 ≤ m ∧ m ≤ 65535) ∧ k = m := by
  have hread {k : Int} (hk : 1 ≤ k) := @readInteger_eq_ok_iff cs k (Nat.pow 2 31)
    (Nat.pow 2 31 - 1) hk
  unfold parsePortNumber Text.readInt32
  constructor
  · intro h
    split at h
    next => cases h
    next k' hk' =>
      split at h
      next hrange =>
        cases h
        obtain ⟨m, hm, -, rfl⟩ := (hread hrange.1).mp hk'
        exact ⟨m, hm, by omega, rfl⟩
      next => cases h
  · rintro ⟨m, hm, hrange, rfl⟩
    have hpos : (1 : Int) ≤ m ∧ (m : Int) ≤ 65535 := by omega
    have hfits : m ≤ Nat.pow 2 31 - 1 := Nat.le_trans hrange.2 (by decide)
    rw [(hread hpos.1).mpr ⟨m, hm, hfits, rfl⟩]
    exact if_pos hpos

/-- A small letter lies as far behind its capital as any other. -/
theorem val_toUpper_of_small {c : Char} (h : 'a'.val ≤ c.val ∧ c.val ≤ 'z'.val) :
    c.toUpper.val = c.val + ('A'.val - 'a'.val) := by
  delta Char.toUpper
  rw [dif_pos h]

theorem toUpper_of_not_small {c : Char} (h : ¬('a'.val ≤ c.val ∧ c.val ≤ 'z'.val)) :
    c.toUpper = c := dif_neg h

theorem toUpper_toUpper (c : Char) : c.toUpper.toUpper = c.toUpper := by
  by_cases hc : 'a'.val ≤ c.val ∧ c.val ≤ 'z'.val
  · have hnot : ¬('a'.val ≤ c.toUpper.val ∧ c.toUpper.val ≤ 'z'.val) := by
      rw [val_toUpper_of_small hc]
      simp only [UInt32.le_iff_toNat_le, UInt32.toNat_add, UInt32.toNat_sub, Char.reduceVal,
        UInt32.reduceToNat] at hc ⊢
      omega
    exact toUpper_of_not_small hnot
  · rw [toUpper_of_not_small hc, toUpper_of_not_small hc]

/-- A small letter and its capital are all that has this capital. -/
theorem toUpper_eq_iff {l c : Char} (hl : 'a' ≤ l ∧ l ≤ 'z') :
    c.toUpper = l.toUpper ↔ c = l ∨ c = l.toUpper := by
  have hl' : 'a'.val ≤ l.val ∧ l.val ≤ 'z'.val := hl
  constructor
  · intro h
    by_cases hc : 'a'.val ≤ c.val ∧ c.val ≤ 'z'.val
    · have hval := congrArg Char.val h
      rw [val_toUpper_of_small hc, val_toUpper_of_small hl'] at hval
      exact .inl (Char.ext ((UInt32.add_left_inj _).mp hval))
    · rw [toUpper_of_not_small hc] at h
      exact .inr h
  · rintro (rfl | rfl)
    · rfl
    · exact toUpper_toUpper l

/-- A text is a word in some letter case just if it has the same capitals. -/
theorem inAnyCase_iff {small : List Char} (h : ∀ l ∈ small, 'a' ≤ l ∧ l ≤ 'z') :
    InAnyCase small word ↔ word.map Char.toUpper = small.map Char.toUpper := by
  unfold InAnyCase
  induction small generalizing word with
  | nil => rw [List.forall₂_nil_left_iff, List.map_nil, List.map_eq_nil_iff]
  | cons l r ih =>
    obtain ⟨hl, hr⟩ := List.forall_mem_cons.mp h
    cases word with
    | nil => exact ⟨fun h => (nomatch h), fun h => (nomatch h)⟩
    | cons c w =>
      rw [List.forall₂_cons, List.map_cons, List.map_cons, List.cons.injEq, toUpper_eq_iff hl,
        ih hr]

namespace Protocol

theorem lower_letters (p : Protocol) : ∀ l ∈ p.lower.toList, 'a' ≤ l ∧ l ≤ 'z' := by
  have hall : (p.lower.toList.all fun l => decide ('a' ≤ l ∧ l ≤ 'z')) = true := by
    cases p <;> decide
  exact fun l hl => of_decide_eq_true (List.all_eq_true.mp hall l hl)

theorem toUpper_lower (p : Protocol) : p.lower.toList.map Char.toUpper = p.upper.toList := by
  cases p <;> decide

theorem map_toLower_upper (p : Protocol) : p.upper.map Char.toLower = p.lower := by
  cases p <;> decide +kernel

/-- The port of a protocol is the one that is named by its capitals. -/
theorem named_upper (p : Protocol) (n : Nat) : ContainerPort.named n p.upper = p.port n := by
  rw [ContainerPort.named, map_toLower_upper]
  rfl

end Protocol

/-- A protocol is read from its name in any letter case. -/
theorem parseProtocol_eq_ok_iff {q : String} : parseProtocol (some (String.ofList word)) = .ok q ↔
    ∃ p : Protocol, InAnyCase p.lower.toList word ∧ q = p.upper := by
  have hcase (p : Protocol) :
      InAnyCase p.lower.toList word ↔ (String.ofList word).map Char.toUpper = p.upper := by
    rw [inAnyCase_iff p.lower_letters, p.toUpper_lower, ← String.toList_inj, String.toList_map,
      String.toList_ofList]
  unfold parseProtocol
  constructor
  · intro h
    dsimp only at h
    split at h
    next hname =>
      cases h
      rcases hname with htcp | hudp
      · exact ⟨.tcp, (hcase .tcp).mpr htcp, htcp⟩
      · exact ⟨.udp, (hcase .udp).mpr hudp, hudp⟩
    next => cases h
  · rintro ⟨p, hword, rfl⟩
    have hname := (hcase p).mp hword
    dsimp only
    rw [if_pos (by rw [hname]; cases p <;> simp [Protocol.upper]), hname]

end Parts

/-! ## Ports -/

section Ports

variable {s : String} {cs word : List Char} {n : Nat} {p : Protocol} {port : ContainerPort}

theorem Numeral.noSlash (h : Numeral cs n) : '/' ∉ cs := by
  intro hmem
  rcases h.mem hmem with hdigit | hplus
  · exact absurd hdigit (by decide)
  · exact absurd hplus (by decide)

theorem InAnyCase.noSlash (h : InAnyCase p.lower.toList word) : '/' ∉ word := by
  have hupper := (inAnyCase_iff p.lower_letters).mp h
  intro hmem
  have hslash : '/' ∈ p.upper.toList := by
    rw [← p.toUpper_lower, ← hupper]
    exact List.mem_map.mpr ⟨'/', hmem, by decide⟩
  cases p <;> exact absurd hslash (by decide)

/-- A port that is written by the grammar is read. -/
theorem parsePort_of_written (h : WrittenPort (Text.trim s.toList) n p) :
    parsePort s = .ok (p.port n) := by
  unfold parsePort
  generalize Text.trim s.toList = cs at h
  cases h with
  | bare hnumber hrange =>
    rw [Text.splitAll_eq_single_iff.mpr ⟨rfl, hnumber.noSlash⟩]
    refine bind_eq_ok_iff.mpr ⟨n, parsePortNumber_eq_ok_iff.mpr ⟨n, hnumber, hrange, rfl⟩, ?_⟩
    exact congrArg _ (Protocol.tcp.named_upper n)
  | typed hnumber hrange hword =>
    rw [Text.splitAll_eq_pair_iff.mpr ⟨rfl, hnumber.noSlash, hword.noSlash⟩]
    refine bind_eq_ok_iff.mpr ⟨n, parsePortNumber_eq_ok_iff.mpr ⟨n, hnumber, hrange, rfl⟩, ?_⟩
    refine bind_eq_ok_iff.mpr ⟨p.upper, parseProtocol_eq_ok_iff.mpr ⟨p, hword, rfl⟩, ?_⟩
    exact congrArg _ (p.named_upper n)

/-- Only ports that are written by the grammar are read. -/
theorem written_of_parsePort (h : parsePort s = .ok port) :
    ∃ n p, WrittenPort (Text.trim s.toList) n p ∧ port = p.port n := by
  unfold parsePort at h
  split at h
  next number hpieces =>
    obtain ⟨hcs, -⟩ := Text.splitAll_eq_single_iff.mp hpieces
    obtain ⟨k, hk, hport⟩ := bind_eq_ok_iff.mp h
    obtain ⟨n, hnumber, hrange, rfl⟩ := parsePortNumber_eq_ok_iff.mp hk
    cases hport
    rw [hcs]
    exact ⟨n, .tcp, .bare hnumber hrange, Protocol.tcp.named_upper n⟩
  next number word hpieces =>
    obtain ⟨hcs, -, -⟩ := Text.splitAll_eq_pair_iff.mp hpieces
    obtain ⟨k, hk, h⟩ := bind_eq_ok_iff.mp h
    obtain ⟨n, hnumber, hrange, rfl⟩ := parsePortNumber_eq_ok_iff.mp hk
    obtain ⟨q, hq, hport⟩ := bind_eq_ok_iff.mp h
    obtain ⟨p, hword, rfl⟩ := parseProtocol_eq_ok_iff.mp hq
    cases hport
    rw [hcs]
    exact ⟨n, p, .typed hnumber hrange hword, p.named_upper n⟩
  next => cases h

/-- A text is read as a port just if it is written as one by the grammar. -/
theorem parsePort_eq_ok_iff :
    parsePort s = .ok port ↔ ∃ n p, WrittenPort (Text.trim s.toList) n p ∧ port = p.port n :=
  ⟨written_of_parsePort, fun ⟨_, _, hwritten, hport⟩ => hport ▸ parsePort_of_written hwritten⟩

theorem WrittenPort.range (h : WrittenPort cs n p) : 1 ≤ n ∧ n ≤ 65535 := by
  cases h <;> assumption

/-- The name of a port with a slash for its hyphen. -/
def slashed (name : String) : String :=
  String.ofList (name.toList.map fun c => if c = '-' then '/' else c)

theorem slashed_name (n : Nat) (p : Protocol) :
    (slashed (toString n ++ "-" ++ p.lower)).toList =
      Nat.toDigits 10 n ++ '/' :: p.lower.toList := by
  have hkeep : ∀ l : List Char, '-' ∉ l → l.map (fun c => if c = '-' then '/' else c) = l := by
    intro l hl
    refine (List.map_congr_left fun c hc => ?_).trans (List.map_id l)
    exact if_neg fun heq : c = '-' => hl (heq ▸ hc)
  have hdigits : '-' ∉ Nat.toDigits 10 n := fun h =>
    absurd (Nat.isDigit_of_mem_toDigits (by decide) (by decide) h) (by decide)
  have hlower : '-' ∉ p.lower.toList := by cases p <;> decide
  rw [slashed, String.toList_ofList, String.toList_append, String.toList_append,
    Nat.toString_eq_ofList_toDigits, String.toList_ofList, List.map_append, List.map_append,
    hkeep _ hdigits, hkeep _ hlower, List.append_assoc]
  rfl

theorem isBlank_of_isDigit {c : Char} (h : c.isDigit = true) : Text.isBlank c = false := by
  obtain ⟨hlow, hhigh⟩ := Text.isDigit_iff.mp h
  have hrange : 48 ≤ c.toNat ∧ c.toNat ≤ 57 := ⟨hlow, hhigh⟩
  simp only [Text.isBlank, Text.blankRanges, List.any_cons, List.any_nil, Bool.or_false,
    Bool.or_eq_false_iff, Bool.and_eq_false_iff, decide_eq_false_iff_not]
  omega

/-- The name of a port is one way to write it. -/
theorem parsePort_named (hrange : 1 ≤ n ∧ n ≤ 65535) :
    parsePort (slashed (toString n ++ "-" ++ p.lower)) = .ok (p.port n) := by
  have hdigits : ∀ c ∈ Nat.toDigits 10 n, c.isDigit = true := fun c =>
    Nat.isDigit_of_mem_toDigits (by decide) (by decide)
  have hnumber : Numeral (Nat.toDigits 10 n) n := by
    have hplain := Numeral.plain Nat.toDigits_ne_nil hdigits
    rwa [Nat.ofDigitChars_ten_toDigits] at hplain
  have hword : InAnyCase p.lower.toList p.lower.toList :=
    List.forall₂_same.mpr fun _ _ => .inl rfl
  have hrest : ∀ c ∈ '/' :: p.lower.toList, (!Text.isBlank c) = true :=
    List.all_eq_true.mp (by cases p <;> decide)
  have htrim : Text.trim (slashed (toString n ++ "-" ++ p.lower)).toList =
      Nat.toDigits 10 n ++ '/' :: p.lower.toList := by
    rw [slashed_name]
    refine Text.trim_of_noBlank fun c hc => ?_
    rcases List.mem_append.mp hc with hc | hc
    · exact isBlank_of_isDigit (hdigits c hc)
    · exact (Bool.not_eq_true' _).mp (hrest c hc)
  refine parsePort_of_written ?_
  rw [htrim]
  exact .typed hnumber hrange hword

/-- A port that is not read is an argument that makes no sense. -/
theorem kind_of_parsePort {f : Failure} (h : parsePort s = .error f) : f.kind = .invalid := by
  have hnumber {cs : List Char} {f : Failure} (h : parsePortNumber cs = .error f) :
      f.kind = .invalid := by
    unfold parsePortNumber at h
    split at h
    · cases h
      rfl
    · split at h
      · cases h
      · cases h
        rfl
  have hprotocol {q : Option String} {f : Failure} (h : parseProtocol q = .error f) :
      f.kind = .invalid := by
    unfold parseProtocol at h
    split at h
    · cases h
    · dsimp only at h
      split at h
      · cases h
      · cases h
        rfl
  unfold parsePort at h
  split at h
  next =>
    rcases bind_eq_error_iff.mp h with h | ⟨k, -, h⟩
    · exact hnumber h
    · cases h
  next =>
    rcases bind_eq_error_iff.mp h with h | ⟨k, -, h⟩
    · exact hnumber h
    · rcases bind_eq_error_iff.mp h with h | ⟨q, -, h⟩
      · exact hprotocol h
      · cases h
  next =>
    cases h
    rfl

end Ports

/-! ## Ports of an image -/

section Exposed

variable {α β ε : Type} {f : α → Except ε β} {l : List α} {bs : List β}

theorem mapM_eq_ok_iff : l.mapM f = .ok bs ↔ List.Forall₂ (fun a b => f a = .ok b) l bs := by
  induction l generalizing bs with
  | nil =>
    rw [List.forall₂_nil_left_iff]
    exact ⟨fun h => (Except.ok.inj h).symm, fun h => h ▸ rfl⟩
  | cons a r ih =>
    rw [List.mapM_cons, bind_eq_ok_iff, List.forall₂_cons_left_iff]
    constructor
    · rintro ⟨b, hb, h⟩
      obtain ⟨rest, hrest, h⟩ := bind_eq_ok_iff.mp h
      exact ⟨b, rest, hb, ih.mp hrest, (Except.ok.inj h).symm⟩
    · rintro ⟨b, rest, hb, hrest, rfl⟩
      exact ⟨b, hb, bind_eq_ok_iff.mpr ⟨rest, ih.mpr hrest, rfl⟩⟩

theorem exists_of_mapM_eq_error {e : ε} (h : l.mapM f = .error e) : ∃ a ∈ l, f a = .error e := by
  induction l with
  | nil => cases h
  | cons a r ih =>
    rw [List.mapM_cons] at h
    rcases bind_eq_error_iff.mp h with h | ⟨b, -, h⟩
    · exact ⟨a, List.mem_cons_self, h⟩
    · rcases bind_eq_error_iff.mp h with h | ⟨bs, -, h⟩
      · obtain ⟨a', ha', h⟩ := ih h
        exact ⟨a', List.mem_cons_of_mem _ ha', h⟩
      · cases h

/-- There are as many results as wanted if there is one for each item. -/
theorem exists_forall₂_iff {R : α → β → Prop} :
    (∃ bs, List.Forall₂ R l bs) ↔ ∀ a ∈ l, ∃ b, R a b := by
  induction l with
  | nil => exact ⟨fun _ _ ha => absurd ha List.not_mem_nil, fun _ => ⟨[], .nil⟩⟩
  | cons a r ih =>
    rw [List.forall_mem_cons, ← ih]
    constructor
    · rintro ⟨_, hb | ⟨hb, hrest⟩⟩
      exact ⟨⟨_, hb⟩, _, hrest⟩
    · rintro ⟨⟨b, hb⟩, bs, hrest⟩
      exact ⟨b :: bs, .cons hb hrest⟩

end Exposed

namespace BuilderImage

variable {b : BuilderImage} {ports : List ContainerPort} {text : String} {port : ContainerPort}

theorem exposedPort_eq_ok_iff :
    exposedPort text = .ok port ↔ text.toList.count '/' = 1 ∧ parsePort text = .ok port := by
  rw [exposedPort, Text.length_splitAll]
  split
  next hlength => exact ⟨fun h => ⟨Nat.succ.inj hlength, h⟩, fun h => h.2⟩
  next hlength => exact ⟨fun h => (nomatch h), fun h => absurd (congrArg Nat.succ h.1) hlength⟩

/-- The ports of an image are those that its texts are read as, one for each and in their order, if
each has exactly one slash. -/
theorem ports_eq_ok_iff : b.ports = .ok ports ↔
    List.Forall₂ (fun text port => text.toList.count '/' = 1 ∧ parsePort text = .ok port)
      b.metadata.exposedPorts ports := by
  simp only [BuilderImage.ports, mapM_eq_ok_iff, exposedPort_eq_ok_iff]

theorem kind_of_ports {f : Failure} (h : b.ports = .error f) : f.kind = .invalid := by
  obtain ⟨text, -, htext⟩ := exists_of_mapM_eq_error h
  unfold exposedPort at htext
  split at htext
  · exact kind_of_parsePort htext
  · cases htext
    rfl

end BuilderImage

/-- **Ports are read exactly as the grammar says.** A text is read just if, without the blanks at
its ends, it is written as a port, and then as the port that is meant; else it is an argument that
makes no sense. The name of the port with a slash for its hyphen is read as the same port. The ports
of an image are read just if each text is and has exactly one slash, and then there is one for each,
in their order. -/
theorem ports_follow_grammar (s : String) (b : BuilderImage) :
    (∀ port, parsePort s = .ok port ↔
      ∃ n p, WrittenPort (Text.trim s.toList) n p ∧ port = p.port n) ∧
    (∀ f, parsePort s = .error f → f.kind = .invalid) ∧
    (∀ port, parsePort s = .ok port →
      ∃ name, port.name = some name ∧ parsePort (slashed name) = .ok port) ∧
    ((∃ ports, b.ports = .ok ports) ↔ ∀ text ∈ b.metadata.exposedPorts,
      (∃ port, parsePort text = .ok port) ∧ text.toList.count '/' = 1) ∧
    (∀ ports, b.ports = .ok ports →
      List.Forall₂ (fun text port => parsePort text = .ok port) b.metadata.exposedPorts ports) ∧
    ∀ f, b.ports = .error f → f.kind = .invalid := by
  refine ⟨fun _ => parsePort_eq_ok_iff, fun _ => kind_of_parsePort, ?named, ?exposed, ?each,
    fun _ => BuilderImage.kind_of_ports⟩
  case named =>
    intro port h
    obtain ⟨n, p, hwritten, rfl⟩ := parsePort_eq_ok_iff.mp h
    exact ⟨_, rfl, parsePort_named hwritten.range⟩
  case exposed =>
    simp only [BuilderImage.ports_eq_ok_iff, exists_forall₂_iff]
    exact forall₂_congr fun text _ =>
      ⟨fun ⟨port, hcount, hport⟩ => ⟨⟨port, hport⟩, hcount⟩,
        fun ⟨⟨port, hport⟩, hcount⟩ => ⟨port, hcount, hport⟩⟩
  case each => exact fun _ h => (BuilderImage.ports_eq_ok_iff.mp h).imp fun _ _ => And.right

/-- A port with blanks, a plus sign and zeros, and with a protocol in mixed letters. -/
def paddedPort : String := " +0080/tCp\n"

theorem written_paddedPort : WrittenPort (Text.trim paddedPort.toList) 80 .tcp := by
  have htrim : Text.trim paddedPort.toList =
      ['+', '0', '0', '8', '0'] ++ '/' :: ['t', 'C', 'p'] := by decide
  rw [htrim]
  refine .typed (.signed (by decide) (List.all_eq_true.mp (by decide))) (by decide) ?_
  exact .cons (.inl rfl) (.cons (.inr rfl) (.cons (.inl rfl) .nil))

/-- An image that exposes a port twice. -/
def exposingImage : BuilderImage where
  reference := { ns := none, name := "nodejs", tag := some "latest", digest := none }
  metadata := { exposedPorts := ["80/tcp", paddedPort] }

theorem ports_follow_grammar_padded :
    parsePort paddedPort = .ok (Protocol.tcp.port 80) ∧
    parsePort "80/tcp" = .ok (Protocol.tcp.port 80) ∧
    ∃ ports, exposingImage.ports = .ok ports ∧
      List.Forall₂ (fun text port => parsePort text = .ok port) ["80/tcp", paddedPort] ports := by
  obtain ⟨hread, -, hnamed, hexposed, heach, -⟩ := ports_follow_grammar paddedPort exposingImage
  have hport : parsePort paddedPort = .ok (Protocol.tcp.port 80) :=
    (hread _).mpr ⟨80, .tcp, written_paddedPort, rfl⟩
  obtain ⟨name, hname, hagain⟩ := hnamed _ hport
  have hslashed : slashed name = "80/tcp" := by
    have hown : (Protocol.tcp.port 80).name = some "80-tcp" := by decide +kernel
    obtain rfl : "80-tcp" = name := Option.some.inj (hown.symm.trans hname)
    decide +kernel
  rw [hslashed] at hagain
  have hboth : ∀ text ∈ exposingImage.metadata.exposedPorts,
      (∃ port, parsePort text = .ok port) ∧ text.toList.count '/' = 1 := by
    intro text htext
    rcases List.mem_pair.mp htext with rfl | rfl
    · exact ⟨⟨_, hagain⟩, by decide⟩
    · exact ⟨⟨_, hport⟩, by decide⟩
  obtain ⟨ports, hports⟩ := hexposed.mpr hboth
  exact ⟨hport, hagain, ports, hports, heach ports hports⟩

end InnerLoop
