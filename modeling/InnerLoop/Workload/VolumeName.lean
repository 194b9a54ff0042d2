/-!
# Names of new volumes

A volume that is made for a claim is named after the claim, with five hexadecimal digits that keep
it apart from others.

- `newVolumeName`: the name for a number.
- `volumeSuffix?`: the end of such a name, read.
- `isVolumeNameOf`: whether a name is one of these.
-/

namespace InnerLoop

/-- Five hexadecimal digits that show `n`. -/
def hexFive (n : Nat) : String :=
  let digits := Nat.toDigits 16 (n % Nat.pow 16 5)
  String.ofList (List.replicate (5 - digits.length) '0' ++ digits)

/-- The name of a new volume for a claim. -/
def newVolumeName (claim : String) (n : Nat) : String := claim ++ "-" ++ hexFive n ++ "-volume"

/-- Whether `c` is one of the digits. -/
def isLowerHex (c : Char) : Bool := c.isDigit || ('a' ≤ c && c ≤ 'f')

/-- The digits of a name's end that the text starts with, and what follows the digits. -/
def volumeSuffix? : List Char → Option (List Char × List Char)
  | '-' :: r =>
    let digits := r.take 5
    let rest := r.drop 5
    if digits.length = 5 ∧ digits.all isLowerHex ∧ "-volume".toList.isPrefixOf rest then
      some (digits, rest)
    else none
  | _ => none

/-- Whether a name is that of a new volume for a claim. -/
def isVolumeNameOf (claim volume : String) : Bool :=
  volume.startsWith claim &&
    (volumeSuffix? (volume.toList.drop claim.length)).any (·.2 == "-volume".toList)

end InnerLoop
