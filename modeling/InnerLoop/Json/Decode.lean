import InnerLoop.Json.Written
import InnerLoop.SortedMap

/-!
# Reading values out of JSON, and writing them

A decoder answers none for what does not fit. It takes what was cut off for something that fits, so
that of a text that breaks off it tells whether the text could have gone on to fit.

Objects are read member by member. A member that is repeated has its last value, and all of its
values have to fit. Four rules say what a missing member means:

- `optional`: missing and null are both absence.
- `defaulted`: missing and null both stand for a fixed value.
- `present`: missing stands for a fixed value, null has to fit.
- `required`: missing does not fit.

`object?` reads any object. `shaped` reads a record, which has no member twice, from an object or
from a list of its members in their fixed order; `open?` reads one whose further members count too.
-/

namespace InnerLoop.Json

/-- Reads an `α`, or says that the value is none. -/
abbrev Decoder (α : Type) := Written → Option α

/-- What a decoder reads out of a value. -/
def as? {α : Type} (v : Json) (d : Decoder α) : Option α := d v.written

/-! ## Plain values -/

/-- Reads a text. -/
def asText : Decoder String
  | .text s => some s
  | .cut => some ""
  | _ => none

/-- Reads a truth value. -/
def asBool : Decoder Bool
  | .bool b => some b
  | .cut => some false
  | _ => none

/-- Reads a whole number between two bounds. -/
def asIntBetween (lo hi : Int) : Decoder Int
  | .number n 0 => if lo ≤ n ∧ n ≤ hi then some n else none
  | .cut => some lo
  | _ => none

/-- Reads an amount: a text, or a whole number, which stands for its digits. -/
def asAmount : Decoder String
  | .text s => some s
  | .number n 0 => if -Int.pow 2 63 ≤ n ∧ n < Int.pow 2 64 then some (toString n) else none
  | .cut => some ""
  | _ => none

/-- Reads one of some words: its text, or an object that has it as its one member, which is null.
`any` stands for one that was cut off. -/
def asWord {α : Type} (word? : String → Option α) (any : α) : Decoder α
  | .text s => word? s
  | .record ms =>
    match ms.filter (!·.2.isCut), Written.breaksOff ms with
    | [(s, .null)], _ => word? s
    | [(s, .blank)], _ => word? s
    | [], true => some any
    | _, _ => none
  | .cut => some any
  | _ => none

/-- Reads a whole number of 32 bits. -/
def asInt32 : Decoder Int := asIntBetween (-Int.pow 2 31) (Int.pow 2 31 - 1)

/-- Reads a whole number of 64 bits. -/
def asInt64 : Decoder Int := asIntBetween (-Int.pow 2 63) (Int.pow 2 63 - 1)

/-- Reads a list. -/
def asList {α : Type} (item : Decoder α) : Decoder (List α)
  | .list l => (l.filter (!·.isCut)).mapM item
  | .cut => some []
  | _ => none

/-- Reads any object: its members. -/
def object? : Decoder Written.Members
  | .record ms => some ms
  | .blank => some []
  | .cut => some Written.cutMembers
  | _ => none

/-- Reads an object whose members are all alike. -/
def asMap {α : Type} (item : Decoder α) : Decoder (SortedMap String α) := fun w => do
  let ms ← object? w
  let entries ← (ms.filter (!·.2.isCut)).mapM fun m => (item m.2).map (m.1, ·)
  some (.ofList entries)

/-- Reads an object whose members are all texts. -/
def asTextMap : Decoder TextMap := asMap asText

/-! ## Members -/

/-- Whether no member of a name in `names` is repeated. -/
def isUnrepeated (names : List String) (ms : Written.Members) : Bool :=
  names.all fun name => ms.countP (·.1 = name) ≤ 1

/-- The members of a record with the members `names`: from an object by name, from a list by
position. A list has the first `least` of them at least. -/
def shaped (names : List String) (least : Nat) : Decoder Written.Members
  | .record ms => if isUnrepeated names ms then some ms else none
  | .blank => some []
  | .list l =>
    let given := l.filter (!·.isCut)
    if names.length < given.length then none
    else if given.length < l.length then some (names.zip given ++ Written.cutMembers)
    else if given.length < least then none
    else some (names.zip given)
  | .cut => some Written.cutMembers
  | _ => none

/-- The members of a record with the members `names`, and its further members, which all have to
stand for something. -/
def open? (names : List String) : Decoder (Written.Members × Members) := fun w => do
  let ms ← object? w
  guard (isUnrepeated names ms)
  let more ← Written.memberValues? [] (ms.filter fun m => m.1 ∉ names)
  some (ms, more)

section

variable {α : Type} (item : Decoder α) (ms : Written.Members) (name : String)

/-- The values of a member, in their order. -/
def values : List Written := (ms.filter (·.1 = name)).map (·.2)

/-- A member that may be absent. -/
def optional : Option (Option α) := do
  let l ← (values ms name).mapM fun
    | .null => some none
    | w => (item w).map some
  some (l.getLast?.join)

/-- A member that has a value when it is missing or null. -/
def defaulted (value : α) : Option α := (optional item ms name).map (·.getD value)

/-- A member that has a value when it is missing. -/
def present (value : α) : Option α :=
  ((values ms name).mapM item).map (·.getLast?.getD value)

/-- A member that must be there, unless the object broke off. -/
def required : Option α := do
  let l ← (values ms name).mapM item
  match l.getLast? with
  | some v => some v
  | none => if Written.breaksOff ms then item .cut else none

end

/-- Reads any value that stands for something. -/
def asJson : Decoder Json := Written.value?

/-! ## Writing -/

/-- An object of the members that are there. -/
def objectOf (ms : List (Option (String × Json))) : Json := .record (ms.filterMap id)

/-- A member that is always written. -/
def always (name : String) (value : Json) : Option (String × Json) := some (name, value)

/-- A member that is written if there is a value. -/
def ifSome {α : Type} (name : String) (write : α → Json) (value : Option α) :
    Option (String × Json) :=
  value.map fun v => (name, write v)

/-- A map, written as an object. -/
def ofMap {α : Type} (write : α → Json) (m : SortedMap String α) : Json :=
  .record (m.entries.map fun e => (e.1, write e.2))

/-- A map of texts, written as an object. -/
def ofTextMap (m : TextMap) : Json := ofMap .text m

/-- A list, written item by item. -/
def ofList {α : Type} (write : α → Json) (l : List α) : Json := .list (l.map write)

end InnerLoop.Json
