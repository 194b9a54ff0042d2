import InnerLoop.Text.Quoted
import InnerLoop.Text.Split
import InnerLoop.Text.Utf8

/-!
# Request targets

What a request to an API server is about: a path, and a query of names and values.

- `formEncode`, `formDecode`: the written form of a name or a value in a query. Letters, digits and
  `*-._` stand for themselves, a plus for a blank, and a percent sign and two digits for any byte.
- `Target.parse?`: the target that a text writes; none if a character may not stand where it does.
- `Target.write`: the text of a path, taken as it is, and of a query.
-/

namespace InnerLoop.Api

/-! ## Names and values in a query -/

/-- An upper-case hexadecimal digit. -/
def hexDigit (n : Nat) : Char := Char.ofNat (if n < 10 then 48 + n else 55 + n)

/-- The written form of one byte. -/
def encodeByte (b : UInt8) : List Char :=
  let c := Char.ofNat b.toNat
  if c.isAlphanum || c == '*' || c == '-' || c == '.' || c == '_' then [c]
  else if c = ' ' then ['+']
  else ['%', hexDigit (b.toNat / 16), hexDigit (b.toNat % 16)]

/-- The written form of a name or a value. -/
def formEncode (s : String) : List Char := (Text.bytesOf s).flatMap encodeByte

/-- The bytes that a written form stands for. A percent sign without two digits is itself. -/
def decodedBytes : List Char → List UInt8
  | [] => []
  | '+' :: r => 32 :: decodedBytes r
  | '%' :: a :: b :: r =>
    match Text.hexValue? a, Text.hexValue? b with
    | some high, some low => UInt8.ofNat (high * 16 + low) :: decodedBytes r
    | _, _ => 37 :: decodedBytes (a :: b :: r)
  | c :: r => Text.bytesOf (String.singleton c) ++ decodedBytes r

/-- The name or value that a written form stands for. -/
def formDecode (cs : List Char) : String := Text.decodeLossy (decodedBytes cs)

/-! ## Targets -/

/-- The names and values of a query, in the order in which they are written. -/
abbrev Query := List (String × String)

/-- What a request is about. -/
structure Target where
  path : String
  query : Query := []
  deriving DecidableEq, Inhabited, Repr

/-- Whether a character may stand in a path. A question mark and a number sign end it. -/
def isPathChar (c : Char) : Bool :=
  let n := c.toNat
  n = 0x21 || n = 0x22 || (0x24 ≤ n && n ≤ 0x3b) || n = 0x3d || (0x40 ≤ n && n ≤ 0x5f) ||
    (0x61 ≤ n && n ≠ 0x7f)

/-- Whether a character may stand in a query. A number sign ends it. -/
def isQueryChar (c : Char) : Bool :=
  let n := c.toNat
  n = 0x21 || (0x24 ≤ n && n ≤ 0x3b) || n = 0x3d || (0x3f ≤ n && n ≠ 0x7f)

/-- How many bytes the text of a target may have. -/
def Target.maxBytes : Nat := 65534

/-- The name and the value of one part of a query; the value of a part without `=` is empty. -/
def parsePair (cs : List Char) : String × String :=
  match Text.splitFirst '=' cs with
  | some (name, value) => (formDecode name, formDecode value)
  | none => (formDecode cs, "")

/-- The names and values of a query. Empty parts count for nothing. -/
def parseQuery (cs : List Char) : Query :=
  ((Text.splitAll '&' cs).filter fun part => !part.isEmpty).map parsePair

/-- The target that a text writes. What follows a number sign is no part of it. -/
def Target.parse? (cs : List Char) : Option Target :=
  let read := cs.takeWhile (· ≠ '#')
  let (path, query) := (Text.splitFirst '?' read).getD (read, [])
  if (Text.bytesOf (String.ofList cs)).length ≤ Target.maxBytes ∧ path.all isPathChar ∧
      query.all isQueryChar then
    some { path := String.ofList path, query := parseQuery query }
  else none

/-- The written form of a query. -/
def renderQuery (q : Query) : List Char :=
  q.flatMap fun (name, value) => '&' :: formEncode name ++ '=' :: formEncode value

/-- The text of a target: a path, which is taken as it is, and a query. -/
def Target.write (path : String) (query : Query) : List Char :=
  path.toList ++ '?' :: renderQuery query

end InnerLoop.Api
