/-!
# Reading whole numbers

A decimal numeral with an optional sign, read into a range. The digits are taken from left to
right, and the first thing that is wrong is what is reported.

- `readInteger`: the number, or why there is none.
- `IntegerFault.message`: the wording.
-/

namespace InnerLoop.Text

/-- Why a text is not a number of the range. -/
inductive IntegerFault where
  /-- There is no text. -/
  | empty
  /-- A character is no digit, or a sign stands alone. -/
  | invalidDigit
  /-- The number lies above the range. -/
  | tooLarge
  /-- The number lies below the range. -/
  | tooSmall
  deriving DecidableEq, Repr, Inhabited

/-- The wording of a fault. -/
def IntegerFault.message : IntegerFault → String
  | .empty => "cannot parse integer from empty string"
  | .invalidDigit => "invalid digit found in string"
  | .tooLarge => "number too large to fit in target type"
  | .tooSmall => "number too small to fit in target type"

/-- The value of a decimal digit. -/
def digitValue? (c : Char) : Option Nat :=
  if '0' ≤ c ∧ c ≤ '9' then some (c.toNat - '0'.toNat) else none

/-- Reads on from the value `acc`; no value on the way may exceed `limit`. -/
def readDigits (limit : Nat) (overflow : IntegerFault) (acc : Nat) :
    List Char → Except IntegerFault Nat
  | [] => .ok acc
  | c :: r =>
    match digitValue? c with
    | none => .error .invalidDigit
    | some d =>
      if acc * 10 + d ≤ limit then readDigits limit overflow (acc * 10 + d) r
      else .error overflow

/-- Reads a number between `-below` and `above`. A plus sign may always lead, a minus sign only
if there are negative numbers in the range. -/
def readInteger (below above : Nat) : List Char → Except IntegerFault Int
  | [] => .error .empty
  | [c] =>
    if c = '+' ∨ c = '-' then .error .invalidDigit
    else (readDigits above .tooLarge 0 [c]).map Int.ofNat
  | c :: r =>
    if c = '+' then (readDigits above .tooLarge 0 r).map Int.ofNat
    else if c = '-' ∧ 0 < below then (readDigits below .tooSmall 0 r).map fun n => -Int.ofNat n
    else (readDigits above .tooLarge 0 (c :: r)).map Int.ofNat

/-- Reads a number that fits a signed 32-bit word. -/
def readInt32 (cs : List Char) : Except IntegerFault Int :=
  readInteger (Nat.pow 2 31) (Nat.pow 2 31 - 1) cs

/-- Reads a number that fits an unsigned 64-bit word. -/
def readNat64 (cs : List Char) : Except IntegerFault Nat :=
  (readInteger 0 (Nat.pow 2 64 - 1) cs).map Int.toNat

end InnerLoop.Text
