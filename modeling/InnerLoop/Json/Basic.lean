/-!
# JSON values

The values that objects are read from and written to, and that fields without a fixed shape hold.

- `Json`: a value. A number is a whole number over a power of ten; one that is whole has
  `places = 0`, and one in double precision a place at least.
- `Json.mergePatch`: a merge patch laid over a value.
- `Json.ordered`, `Json.mapTexts`, `Json.texts`: all members in order, and all texts of a value.
-/

namespace InnerLoop

/-- A JSON value. -/
inductive Json where
  | null
  | bool (value : Bool)
  /-- The number `mantissa / 10 ^ places`. -/
  | number (mantissa : Int) (places : Nat)
  /-- Minus zero, which is no whole number. -/
  | minusZero
  | text (value : String)
  | list (items : List Json)
  /-- An object, its members in the order in which they were given. -/
  | record (members : List (String × Json))
  deriving Inhabited, Repr

namespace Json

/-- The members of an object. -/
abbrev Members := List (String × Json)

/-- A whole number. -/
def ofInt (n : Int) : Json := .number n 0

/-- A list of texts. -/
def ofTexts (l : List String) : Json := .list (l.map .text)

/-- The members of an object, and none of any other value. -/
def members : Json → Members
  | .record ms => ms
  | _ => []

/-- The member `name` of a value, null where there is none. -/
def get (v : Json) (name : String) : Json := (v.members.lookup name).getD .null

/-- The members with `value` under `name`, in the place of an earlier one or at the end. -/
def set (name : String) (value : Json) : Members → Members
  | [] => [(name, value)]
  | (n, v) :: r => if n = name then (n, value) :: r else (n, v) :: set name value r

/-- The members without `name`. -/
def without (name : String) (ms : Members) : Members := ms.filter fun m => m.1 ≠ name

mutual

/-- The value after a merge patch: the members of a patch object replace those of their names, a
null member removes, and a patch that is no object stands for the whole value. -/
def mergePatch (target patch : Json) : Json :=
  match patch with
  | .record ms => .record (mergeMembers target.members ms)
  | p => p

/-- The members after those of a patch object. -/
def mergeMembers (target patch : Members) : Members :=
  match patch with
  | [] => target
  | (name, value) :: r =>
    match value with
    | .null => mergeMembers (without name target) r
    | v => mergeMembers (set name (mergePatch ((target.lookup name).getD .null) v) target) r

end

/-! ## All of a value -/

mutual

/-- The value with the members of every object in the order of their names. -/
def ordered : Json → Json
  | .list l => .list (orderedItems l)
  | .record ms => .record ((orderedMembers ms).mergeSort fun a b => a.1 ≤ b.1)
  | v => v

/-- The items of a list, each ordered. -/
def orderedItems : List Json → List Json
  | [] => []
  | v :: r => ordered v :: orderedItems r

/-- The members of an object, each ordered. -/
def orderedMembers : List (String × Json) → List (String × Json)
  | [] => []
  | (n, v) :: r => (n, ordered v) :: orderedMembers r

end

mutual

/-- The value with every text in it changed, the names of members among them. -/
def mapTexts (f : String → String) : Json → Json
  | .text s => .text (f s)
  | .list l => .list (mapItemTexts f l)
  | .record ms => .record (mapMemberTexts f ms)
  | v => v

/-- The items of a list with every text in them changed. -/
def mapItemTexts (f : String → String) : List Json → List Json
  | [] => []
  | v :: r => mapTexts f v :: mapItemTexts f r

/-- The members of an object with every text in them changed. -/
def mapMemberTexts (f : String → String) : List (String × Json) → List (String × Json)
  | [] => []
  | (n, v) :: r => (f n, mapTexts f v) :: mapMemberTexts f r

end

mutual

/-- The texts in a value in their order, without the names of members. -/
def texts : Json → List String
  | .text s => [s]
  | .list l => itemTexts l
  | .record ms => memberTexts ms
  | _ => []

/-- The texts in the items of a list. -/
def itemTexts : List Json → List String
  | [] => []
  | v :: r => texts v ++ itemTexts r

/-- The texts in the members of an object. -/
def memberTexts : List (String × Json) → List String
  | [] => []
  | (_, v) :: r => texts v ++ memberTexts r

end

end Json

end InnerLoop
