import InnerLoop.Json.Double
import InnerLoop.Json.Written
import InnerLoop.Text.Quoted

/-!
# JSON text

`Written.ofText` reads what a whole text writes. The reader is strict: no comments, no trailing
commas, no leading zeros, nothing after the value but blanks. It keeps the lists and objects that
are open around it, so that nesting costs it nothing, and it tells a text that breaks off from one
that is malformed.

- `Written.Reading`: what came of reading a text.
- `Json.parse?`: the value that a whole text stands for.
-/

namespace InnerLoop

namespace Json

/-- How deep the lists and objects of a value may be nested. -/
def maxDepth : Nat := 127

/-- What came of reading a part of a text. -/
inductive Scan (α : Type) where
  /-- The part, and what follows it. -/
  | done (value : α) (rest : List Char)
  /-- The text ends within the part. -/
  | broken (sofar : α)
  | malformed
  deriving Inhabited, Repr

/-- The text after its leading blanks. -/
def skipBlanks (cs : List Char) : List Char :=
  cs.dropWhile fun c => c = ' ' ∨ c = '\t' ∨ c = '\n' ∨ c = '\r'

/-! ## Texts -/

/-- Four hexadecimal digits. -/
def hexQuad : List Char → Scan Nat
  | a :: b :: c :: d :: r =>
    match Text.hexValue? a, Text.hexValue? b, Text.hexValue? c, Text.hexValue? d with
    | some a, some b, some c, some d => .done (((a * 16 + b) * 16 + c) * 16 + d) r
    | _, _, _, _ => .malformed
  -- Four bytes have to be there before one looks at them.
  | cs => if (String.ofList cs).utf8ByteSize < 4 then .broken 0 else .malformed

/-- The character that a simple escape stands for. -/
def simpleEscape? : Char → Option Char
  | '"' => some '"'
  | '\\' => some '\\'
  | '/' => some '/'
  | 'b' => some '\x08'
  | 'f' => some '\x0c'
  | 'n' => some '\n'
  | 'r' => some '\r'
  | 't' => some '\t'
  | _ => none

/-- Whether a code unit is the first of a pair. -/
def isHighUnit (n : Nat) : Bool := 0xd800 ≤ n && n < 0xdc00

/-- Whether a code unit is the second of a pair. -/
def isLowUnit (n : Nat) : Bool := 0xdc00 ≤ n && n < 0xe000

/-- The second code unit of a pair, if `cs` starts with its escape. -/
def lowEscape : List Char → Scan (Option Nat)
  | [] => .broken none
  | ['\\'] => .broken none
  | '\\' :: 'u' :: r =>
    match hexQuad r with
    | .done n r => if isLowUnit n then .done (some n) r else .done none []
    | .broken _ => .broken none
    | .malformed => .malformed
  | _ => .done none []

/-- The character of a code escape whose digits start `cs`, which may be one of a pair. One of a
pair that stands alone is none. -/
def codeEscape (cs : List Char) : Scan (Option Char) :=
  match hexQuad cs with
  | .done n r =>
    if isHighUnit n then
      match lowEscape r with
      | .done (some low) r =>
        .done (some (Char.ofNat (0x10000 + (n - 0xd800) * 0x400 + (low - 0xdc00)))) r
      | .done none _ => .done none r
      | .broken _ => .broken (some ' ')
      | .malformed => .malformed
    else if isLowUnit n then .done none r
    else .done (some (Char.ofNat n)) r
  | .broken _ => .broken (some ' ')
  | .malformed => .malformed

/-- The text with a character less to come; none once there was no character. -/
def pushed (acc : Option (List Char)) (c : Option Char) : Option (List Char) :=
  match acc, c with
  | some cs, some c => some (c :: cs)
  | _, _ => none

/-- The characters of a text up to its closing quote; at most `n` steps. The text is none if it
stands for nothing. -/
def textBody : Nat → Option (List Char) → List Char → Scan (Option String)
  | 0, _, _ => .malformed
  | _, acc, [] => .broken (acc.map fun _ => "")
  | n + 1, acc, c :: r =>
    if c = '"' then .done (acc.map fun cs => String.ofList cs.reverse) r
    else if c = '\\' then
      match r with
      | 'u' :: r =>
        match codeEscape r with
        | .done x r => textBody n (pushed acc x) r
        | .broken x => .broken ((pushed acc x).map fun _ => "")
        | .malformed => .malformed
      | e :: r =>
        match simpleEscape? e with
        | some x => textBody n (pushed acc (some x)) r
        | none => .malformed
      | [] => .broken (acc.map fun _ => "")
    else if c.toNat < 0x20 then .malformed
    else textBody n (pushed acc (some c)) r

/-- A text of at most `n` characters, after its opening quote. -/
def scanText (n : Nat) (cs : List Char) : Scan (Option String) := textBody (n + 1) (some []) cs

/-! ## Numbers -/

/-- The decimal digits that `cs` starts with. -/
def digitRun (cs : List Char) : List Char × List Char := cs.span Char.isDigit

/-- The number that a run of decimal digits writes. -/
def digitsValue (ds : List Char) : Nat := ds.foldl (fun n d => n * 10 + (d.toNat - 48)) 0

/-- A run of digits that has to be there. -/
def someDigits (cs : List Char) : Scan (List Char) :=
  match digitRun cs with
  | ([], []) => .broken []
  | ([], _) => .malformed
  | (ds, r) => .done ds r

/-- The sign that `cs` may start with, and what follows it: whether it is a minus. -/
def signOf : List Char → Bool × List Char
  | '-' :: r => (true, r)
  | '+' :: r => (false, r)
  | r => (false, r)

/-- The whole numbers that are kept as such. -/
def isWholeRange (n : Int) : Bool := -Int.pow 2 63 ≤ n && n < Int.pow 2 64

/-- The digits that are taken after those of `n`, as long as the number has no more than 64 bits,
and how many are left. -/
def takeDigits (n : Nat) : List Char → Nat × Nat
  | [] => (n, 0)
  | d :: r =>
    let next := n * 10 + (d.toNat - 48)
    if next < Nat.pow 2 64 then takeDigits next r else (n, r.length + 1)

/-- A number that is not whole, of whole digits, the digits of a fraction and an exponent. Digits
that are too many count as zeros, and one that is out of range is illegible. -/
def doubleOf (negative : Bool) (whole fraction : List Char) (exponent : Int) : Written :=
  let (n, wholeLeft) := takeDigits 0 whole
  let (n, fractionLeft) := takeDigits n fraction
  match Double.ofDecimal? n (exponent + wholeLeft - (fraction.length - fractionLeft)) with
  | none => .illegible
  | some d =>
    let (digits, scale) := d.shortest
    let mantissa : Int := if negative then -digits else digits
    if negative ∧ digits = 0 then .minusZero
    else if scale < 0 then .number mantissa (-scale).toNat
    -- With a place more than needed the number does not pass for a whole one.
    else .number (mantissa * Int.pow 10 (scale.toNat + 1)) 1

/-- A number of a sign, whole digits, the digits of a fraction and an exponent, as far as they are
there. Minus zero is no whole number. -/
def numberOf (negative : Bool) (whole : List Char) (fraction : Option (List Char))
    (exponent : Option Int) : Written :=
  let size := digitsValue whole
  let n : Int := if negative then -size else size
  if fraction.isNone ∧ exponent.isNone ∧ isWholeRange n ∧ ¬(negative ∧ size = 0) then .number n 0
  else doubleOf negative whole (fraction.getD []) (exponent.getD 0)

/-- A number. -/
def scanNumber (cs : List Char) : Scan Written :=
  let (negative, cs) : Bool × List Char := match cs with
    | '-' :: r => (true, r)
    | r => (false, r)
  match someDigits cs with
  | .broken _ => .broken .cut
  | .malformed => .malformed
  | .done whole cs =>
    if whole.head? = some '0' ∧ whole ≠ ['0'] then .malformed
    else
      let fraction : Scan (Option (List Char)) := match cs with
        | '.' :: r =>
          match someDigits r with
          | .done ds r => .done (some ds) r
          | .broken _ => .broken none
          | .malformed => .malformed
        | r => .done none r
      match fraction with
      | .broken _ => .broken .cut
      | .malformed => .malformed
      | .done fraction cs =>
        match cs with
        | c :: r =>
          if c = 'e' ∨ c = 'E' then
            let (minus, r) := signOf r
            match someDigits r with
            | .broken _ => .broken .cut
            | .malformed => .malformed
            | .done ds r =>
              let size : Int := digitsValue ds
              .done (numberOf negative whole fraction (some (if minus then -size else size))) r
          else .done (numberOf negative whole fraction none) cs
        | [] => .done (numberOf negative whole fraction none) []

/-! ## Values -/

/-- A word and what follows it. -/
def scanWord : List Char → List Char → Option (Option (List Char))
  | [], cs => some (some cs)
  | _, [] => some none
  | a :: word, c :: r => if a = c then scanWord word r else none

/-- A word that stands for a value. -/
def scanLiteral (word : String) (w : Written) (cs : List Char) : Scan Written :=
  match scanWord word.toList cs with
  | some (some r) => .done w r
  | some none => .broken .cut
  | none => .malformed

/-- A value that holds no others, of at most `n` characters if it is a text. -/
def scanLeaf (n : Nat) (cs : List Char) : Scan Written :=
  match cs with
  | [] => .broken .cut
  | 'n' :: _ => scanLiteral "null" .null cs
  | 't' :: _ => scanLiteral "true" (.bool true) cs
  | 'f' :: _ => scanLiteral "false" (.bool false) cs
  | '"' :: r =>
    match scanText n r with
    | .done s r => .done (s.elim .illegible .text) r
    | .broken s => .broken (s.elim .illegible fun _ => .cut)
    | .malformed => .malformed
  | _ => scanNumber cs

end Json

/-! ## Whole texts -/

open Json

namespace Written

/-- What came of reading a whole text. -/
inductive Reading where
  | whole (value : Written)
  /-- The text breaks off. -/
  | broken (value : Written)
  | malformed
  deriving Inhabited, Repr

/-- A list or an object that is open: what stands in it so far, the last first. -/
inductive Open where
  | list (items : List Written)
  /-- An object, and the name that its next value is for. -/
  | record (members : Members) (name : String)
  /-- An object that has a name that stands for nothing. -/
  | illegible
  deriving Inhabited, Repr

/-- What is open around a place, each with how deep it is nested. -/
abbrev Around := List (Nat × Open)

namespace Open

/-- The list or the object after its last value. -/
def close (depth : Nat) (o : Open) (last : Written) : Written :=
  if maxDepth < depth then .illegible
  else match o with
    | list items => .list (last :: items).reverse
    | record members name => .record ((name, last) :: members).reverse
    | illegible => .illegible

/-- The list or the object where it breaks off in or after a value. -/
def breakOff (depth : Nat) (o : Open) (last : Written) : Written :=
  if maxDepth < depth then .illegible
  else match o with
    | list items => .list (.cut :: last :: items).reverse
    | record members name => .record (("", .cut) :: (name, last) :: members).reverse
    | illegible => .illegible

end Open

/-- What a text wrote that breaks off, `w` last. -/
def brokenOff (around : Around) (w : Written) : Written :=
  around.foldl (fun w p => p.2.breakOff p.1 w) w

/-- Where a reader stands. -/
inductive Place where
  /-- Before a value. -/
  | value
  /-- Before the name of a member, after some members; they are none once one is illegible. -/
  | name (members : Option Members)
  /-- After a value. -/
  | after (value : Written)

/-- How deep what is opened next is nested. -/
def Around.depth (around : Around) : Nat := (around.head?.elim 0 (·.1)) + 1

/-- Reads on from a place; at most `n` steps, each of which takes a character at least. -/
def readOn : Nat → Place → Around → List Char → Reading
  | 0, _, _, _ => .malformed
  | n + 1, .value, around, cs =>
    match skipBlanks cs with
    | '[' :: r =>
      match skipBlanks r with
      | ']' :: r =>
        readOn n (.after (if maxDepth < around.depth then .illegible else .list [])) around r
      | r => readOn n .value ((around.depth, .list []) :: around) r
    | '\x7b' :: r =>
      match skipBlanks r with
      | '\x7d' :: r =>
        readOn n (.after (if maxDepth < around.depth then .illegible else .record [])) around r
      | r => readOn n (.name (some [])) around r
    | cs =>
      match scanLeaf n cs with
      | .done w r => readOn n (.after w) around r
      | .broken w => .broken (brokenOff around w)
      | .malformed => .malformed
  | n + 1, .name members, around, cs =>
    -- The object, open for the value of its next member.
    let opened (name : Option String) : Around :=
      match members, name with
      | some ms, some name => (around.depth, .record ms name) :: around
      | _, _ => (around.depth, .illegible) :: around
    match skipBlanks cs with
    | '"' :: r =>
      match scanText n r with
      | .done name r =>
        match skipBlanks r with
        | ':' :: r => readOn n .value (opened name) r
        | [] => .broken (brokenOff (opened name) .cut)
        | _ => .malformed
      | .broken name => .broken (brokenOff (opened name) .cut)
      | .malformed => .malformed
    | [] => .broken (brokenOff (opened (some "")) .cut)
    | _ => .malformed
  | n + 1, .after w, around, cs =>
    match around, skipBlanks cs with
    | [], [] => .whole w
    | [], _ => .malformed
    | around, [] => .broken (brokenOff around w)
    | (depth, o) :: outer, c :: r =>
      match o with
      | .list items =>
        if c = ',' then readOn n .value ((depth, .list (w :: items)) :: outer) r
        else if c = ']' then readOn n (.after (o.close depth w)) outer r
        else .malformed
      | .record members name =>
        if c = ',' then readOn n (.name (some ((name, w) :: members))) outer r
        else if c = '\x7d' then readOn n (.after (o.close depth w)) outer r
        else .malformed
      | .illegible =>
        if c = ',' then readOn n (.name none) outer r
        else if c = '\x7d' then readOn n (.after .illegible) outer r
        else .malformed

/-- What a whole text writes. -/
def ofText (s : String) : Reading := readOn (s.toList.length + 2) .value [] s.toList

/-- What a whole text writes, if it is well formed and does not break off. -/
def ofText? (s : String) : Option Written :=
  match ofText s with
  | .whole w => some w
  | _ => none

end Written

/-- The value that a whole text stands for. -/
def Json.parse? (s : String) : Option Json := (Written.ofText? s).bind Written.value?

end InnerLoop
