import InnerLoop.Json.Basic
import InnerLoop.Text.Quoted

/-!
# Writing JSON text

`Json.render` writes a value without blanks, the members of an object in the order in which the
value holds them. Only what a text may not hold is escaped.
-/

namespace InnerLoop.Json

/-- One character inside a text: a quote, a backslash and control characters are escaped. -/
def escapedChar (c : Char) : List Char :=
  if c = '"' then ['\\', '"']
  else if c = '\\' then ['\\', '\\']
  else if c = '\x08' then ['\\', 'b']
  else if c = '\x0c' then ['\\', 'f']
  else if c = '\n' then ['\\', 'n']
  else if c = '\r' then ['\\', 'r']
  else if c = '\t' then ['\\', 't']
  else if c.toNat < 0x10 then ['\\', 'u', '0', '0', '0'] ++ Text.hexDigits c.toNat
  else if c.toNat < 0x20 then ['\\', 'u', '0', '0'] ++ Text.hexDigits c.toNat
  else [c]

/-- A text in quotes. -/
def renderText (s : String) : List Char := '"' :: s.toList.flatMap escapedChar ++ ['"']

/-- A number: its digits, and a point in front of the last `places` of them. -/
def renderNumber (mantissa : Int) (places : Nat) : List Char :=
  let digits := Nat.toDigits 10 mantissa.natAbs
  let padded := List.replicate (places + 1 - digits.length) '0' ++ digits
  let whole := padded.take (padded.length - places)
  let sign := if mantissa < 0 then ['-'] else []
  if places = 0 then sign ++ digits
  else sign ++ whole ++ '.' :: padded.drop (padded.length - places)

mutual

/-- The characters of a value. -/
def chars : Json → List Char
  | .null => ['n', 'u', 'l', 'l']
  | .bool true => ['t', 'r', 'u', 'e']
  | .bool false => ['f', 'a', 'l', 's', 'e']
  | .number m p => renderNumber m p
  | .minusZero => ['-', '0', '.', '0']
  | .text s => renderText s
  | .list l => '[' :: itemChars l ++ [']']
  | .record ms => '\x7b' :: memberChars ms ++ ['\x7d']

/-- The characters of the items of a list. -/
def itemChars : List Json → List Char
  | [] => []
  | [v] => chars v
  | v :: r => chars v ++ ',' :: itemChars r

/-- The characters of the members of an object. -/
def memberChars : List (String × Json) → List Char
  | [] => []
  | [(n, v)] => renderText n ++ ':' :: chars v
  | (n, v) :: r => renderText n ++ ':' :: chars v ++ ',' :: memberChars r

end

/-- The text of a value. -/
def render (v : Json) : String := String.ofList v.chars

end InnerLoop.Json
