/-!
# Numbers that are not whole

A number with a fraction, an exponent or too many digits is kept in double precision, a whole number
of at most 53 bits times a power of two.

- `Double`: such a number that is not negative; `Double.ofRatio?`, the one nearest to a ratio.
- `Double.ofDecimal?`: the number that digits and a power of ten stand for, in the steps in which it
  is computed.
- `Double.shortest`: the fewest digits that read back.
-/

namespace InnerLoop

/-- The whole number nearest to a ratio; halfway between two it is the even one. -/
def roundEven (num den : Nat) : Nat :=
  let q := num / den
  let twice := 2 * (num % den)
  if twice < den then q
  else if den < twice then q + 1
  else q + q % 2

/-- The number `significand * 2 ^ exponent`. -/
structure Double where
  significand : Nat
  exponent : Int
  deriving DecidableEq, Inhabited, Repr

namespace Double

/-- How many bits a significand has. -/
def bits : Nat := 53

/-- The least exponent. -/
def leastExponent : Int := -1074

/-- The least power of two that is out of range. -/
def bound : Nat := Nat.pow 2 1024

/-- A power with a positive exponent, and one otherwise. -/
def power (base : Nat) (exponent : Int) : Nat := base.pow exponent.toNat

/-- The number as a ratio of two whole ones. -/
def ratio (d : Double) : Nat × Nat := (d.significand * power 2 d.exponent, power 2 (-d.exponent))

/-- The number nearest to a ratio with an exponent. -/
def atExponent (num den : Nat) (exponent : Int) : Double :=
  ⟨roundEven (num * power 2 (-exponent)) (den * power 2 exponent), exponent⟩

/-- The number nearest to a ratio; none if it is out of range. -/
def ofRatio? (num den : Nat) : Option Double :=
  -- The ratio has one bit more than `size` at most, and one less at least.
  let size : Int := (Nat.log2 num : Int) - Nat.log2 den
  let exponent := max (size - bits) leastExponent
  let fits := num * power 2 (-exponent) < Nat.pow 2 bits * (den * power 2 exponent)
  let d := atExponent num den (if fits then exponent else exponent + 1)
  if d.ratio.1 < bound * d.ratio.2 then some d else none

/-- The number nearest to a whole one. -/
def ofNat? (n : Nat) : Option Double := ofRatio? n 1

/-- The product, rounded. -/
def mul? (a b : Double) : Option Double := ofRatio? (a.ratio.1 * b.ratio.1) (a.ratio.2 * b.ratio.2)

/-- The quotient, rounded. -/
def div? (a b : Double) : Option Double := ofRatio? (a.ratio.1 * b.ratio.2) (a.ratio.2 * b.ratio.1)

/-- The greatest power of ten in range. -/
def maxTen : Nat := 308

/-- The number times a power of ten. What has more places than powers of ten go is divided again and
again, at most `n` times, which leaves nothing of any number. -/
def scale? : (n : Nat) → Double → Int → Option Double
  | 0, _, _ => some ⟨0, 0⟩
  | n + 1, d, exponent =>
    if exponent.natAbs ≤ maxTen then do
      let ten ← ofNat? (Nat.pow 10 exponent.natAbs)
      if 0 ≤ exponent then d.mul? ten else d.div? ten
    else if d.significand = 0 then some d
    else if 0 ≤ exponent then none
    else do
      let d ← d.div? (← ofNat? (Nat.pow 10 maxTen))
      scale? n d (exponent + maxTen)

/-- The number that `digits * 10 ^ exponent` stands for; none if it is out of range. The digits are
rounded first, and then their product with a power of ten. -/
def ofDecimal? (digits : Nat) (exponent : Int) : Option Double := do
  scale? 5 (← ofNat? digits) exponent

/-- A decimal `digits * 10 ^ exponent` as a ratio of two whole numbers. -/
def decimalRatio (digits : Nat) (exponent : Int) : Nat × Nat :=
  (digits * power 10 exponent, power 10 (-exponent))

/-- Whether a decimal reads back as a number. -/
def readsBack (d : Double) (digits : Nat) (exponent : Int) : Bool :=
  let r := decimalRatio digits exponent
  match ofRatio? r.1 r.2 with
  | some e => e.ratio.1 * d.ratio.2 = d.ratio.1 * e.ratio.2
  | none => false

/-- The decimals next to a number among those with an exponent, the nearer one first. -/
def neighbours (d : Double) (exponent : Int) : List Nat :=
  let num := d.ratio.1 * power 10 (-exponent)
  let den := d.ratio.2 * power 10 exponent
  let low := num / den
  if 2 * (num % den) < den then [low, low + 1] else [low + 1, low]

/-- The exponent of the first digit of a number. -/
def leadingExponent (d : Double) : Int :=
  let (num, den) := d.ratio
  let guess : Int := ((Nat.toDigits 10 num).length : Int) - (Nat.toDigits 10 den).length
  if num * power 10 (-guess) < den * power 10 guess then guess - 1 else guess

/-- The digits and the exponent of a decimal that reads back, the first one among those with a digit
more at every try. -/
def search (d : Double) (exponent : Int) : (tries : Nat) → Nat × Int
  | 0 => ((neighbours d exponent).headD 0, exponent)
  | n + 1 =>
    match (neighbours d exponent).find? (readsBack d · exponent) with
    | some digits => (digits, exponent)
    | none => search d (exponent - 1) n

/-- The digits and the exponent of the decimal with the fewest digits that reads back. Seventeen
digits always do. -/
def shortest (d : Double) : Nat × Int :=
  if d.significand = 0 then (0, 0) else search d d.leadingExponent 17

end Double

end InnerLoop
