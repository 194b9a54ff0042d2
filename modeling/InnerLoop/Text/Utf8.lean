/-!
# Text in bytes

- `bytesOf`: the bytes of a text in UTF-8.
- `decodeLossy`: the text of some bytes; every longest start of a character that is not completed,
  and every byte that starts none, is replaced by U+FFFD.
-/

namespace InnerLoop.Text

/-- The bytes of a text. -/
def bytesOf (s : String) : List UInt8 := s.toUTF8.toList

/-- A character of which some bytes were read. -/
structure PartialChar where
  /-- How many bytes are missing. -/
  missing : Nat
  /-- The bits that were read. -/
  code : Nat
  /-- Bounds of the next byte. -/
  low : Nat
  high : Nat
  deriving DecidableEq, Inhabited, Repr

/-- What a byte starts. -/
inductive LeadByte where
  | whole (c : Char)
  | start (p : PartialChar)
  | invalid

/-- What the byte `b` starts. Bounds on the second byte rule out code points that have a shorter
form, surrogates, and what lies above the last code point. -/
def leadByte (b : Nat) : LeadByte :=
  if b < 0x80 then .whole (Char.ofNat b)
  else if b < 0xc2 then .invalid
  else if b < 0xe0 then .start ⟨1, b - 0xc0, 0x80, 0xbf⟩
  else if b = 0xe0 then .start ⟨2, 0, 0xa0, 0xbf⟩
  else if b = 0xed then .start ⟨2, 0xd, 0x80, 0x9f⟩
  else if b < 0xf0 then .start ⟨2, b - 0xe0, 0x80, 0xbf⟩
  else if b = 0xf0 then .start ⟨3, 0, 0x90, 0xbf⟩
  else if b < 0xf4 then .start ⟨3, b - 0xf0, 0x80, 0xbf⟩
  else if b = 0xf4 then .start ⟨3, 4, 0x80, 0x8f⟩
  else .invalid

/-- What stands for bytes that are no character. -/
def replacement : Char := Char.ofNat 0xfffd

/-- The characters of the bytes that follow a character begun before. -/
def decodeFrom : Option PartialChar → List UInt8 → List Char
  | none, [] => []
  | some _, [] => [replacement]
  | none, b :: r =>
    match leadByte b.toNat with
    | .whole c => c :: decodeFrom none r
    | .start p => decodeFrom (some p) r
    | .invalid => replacement :: decodeFrom none r
  | some p, b :: r =>
    if p.low ≤ b.toNat ∧ b.toNat ≤ p.high then
      let code := p.code * 64 + (b.toNat - 0x80)
      if p.missing ≤ 1 then Char.ofNat code :: decodeFrom none r
      else decodeFrom (some ⟨p.missing - 1, code, 0x80, 0xbf⟩) r
    else replacement ::
      -- The byte that does not continue the character may start another one.
      match leadByte b.toNat with
      | .whole c => c :: decodeFrom none r
      | .start p => decodeFrom (some p) r
      | .invalid => replacement :: decodeFrom none r

/-- The text of some bytes. -/
def decodeLossy (bytes : List UInt8) : String := String.ofList (decodeFrom none bytes)

end InnerLoop.Text
