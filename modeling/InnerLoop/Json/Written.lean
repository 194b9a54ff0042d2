import InnerLoop.Json.Basic

/-!
# JSON as a text writes it

A text can write more than a value: it can repeat a member, hold a part that is well formed and yet
stands for nothing, or break off. What is read of it depends on who reads, since a part that nobody
asks for is passed over whatever it holds.

- `Written`: what a text writes.
- `Written.value?`: the value that it stands for.
- `Written.kept`: what is written, kept until it is known what is asked for.
- `Json.written`: a value, as a text would write it.
-/

namespace InnerLoop

/-- A value as a text writes it. -/
inductive Written where
  | null
  | bool (value : Bool)
  /-- The number `mantissa / 10 ^ places`. -/
  | number (mantissa : Int) (places : Nat)
  | minusZero
  | text (value : String)
  | list (items : List Written)
  /-- An object, its members in the order of the text, repeated ones too. -/
  | record (members : List (String × Written))
  /-- An object without members that was kept until it was known what is asked for there. Where only
  null will do it passes for null. -/
  | blank
  /-- A part that is well formed and stands for nothing: a number out of all range, a text with
  half of a pair of code units, an object with such a name, or what is nested too deeply. -/
  | illegible
  /-- What stood here if the text did not break off. A list that breaks off ends with it, and an
  object with a member without a name. -/
  | cut
  deriving Inhabited, Repr

namespace Written

/-- The members of an object. -/
abbrev Members := List (String × Written)

/-- An object that broke off before its first member. -/
def cutMembers : Members := [("", .cut)]

/-- Whether nothing was read of a value before the text broke off. -/
def isCut : Written → Bool
  | .cut => true
  | _ => false

/-- Whether an object broke off. -/
def breaksOff (ms : Members) : Bool := ms.any (·.2.isCut)

mutual

/-- The value that is written. A member that is repeated has its last value, and what was cut off
counts for nothing. -/
def value? : Written → Option Json
  | .null => some .null
  | .bool b => some (.bool b)
  | .number m p => some (.number m p)
  | .minusZero => some .minusZero
  | .text s => some (.text s)
  | .list l => (itemValues? l).map .list
  | .record ms => (memberValues? [] ms).map .record
  | .blank => some (.record [])
  | .illegible => none
  | .cut => some .null

/-- The values of the items of a list. -/
def itemValues? : List Written → Option (List Json)
  | [] => some []
  | w :: r =>
    match value? w with
    | none => none
    | some v => (itemValues? r).map (v :: ·)

/-- The members `ms` and, laid over them, the members that are written. -/
def memberValues? (ms : Json.Members) : List (String × Written) → Option Json.Members
  | [] => some ms
  | (name, w) :: r =>
    match value? w with
    | none => none
    | some v => memberValues? (Json.set name v ms) r

end

mutual

/-- What is written, kept until it is known what is asked for there. -/
def kept : Written → Written
  | .list l => .list (keptItems l)
  | .record [] => .blank
  | .record (m :: ms) => .record (keptMembers (m :: ms))
  | w => w

/-- The items of a list, kept. -/
def keptItems : List Written → List Written
  | [] => []
  | w :: r => kept w :: keptItems r

/-- The members of an object, kept. -/
def keptMembers : List (String × Written) → List (String × Written)
  | [] => []
  | (name, w) :: r => (name, kept w) :: keptMembers r

end

end Written

namespace Json

mutual

/-- The value, as a text writes it. -/
def written : Json → Written
  | .null => .null
  | .bool b => .bool b
  | .number m p => .number m p
  | .minusZero => .minusZero
  | .text s => .text s
  | .list l => .list (writtenItems l)
  | .record ms => .record (writtenMembers ms)

/-- The items of a list, as a text writes them. -/
def writtenItems : List Json → List Written
  | [] => []
  | v :: r => written v :: writtenItems r

/-- The members of an object, as a text writes them. -/
def writtenMembers : List (String × Json) → List (String × Written)
  | [] => []
  | (n, v) :: r => (n, written v) :: writtenMembers r

end

end Json

end InnerLoop
