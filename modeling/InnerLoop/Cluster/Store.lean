import InnerLoop.Watch.Selector
import InnerLoop.Watch.Event
import InnerLoop.Object.Meta

/-!
# A store of objects of one kind

Objects are filed under their names, get a new version whenever they are written, and every write
is told to the watches that it concerns.

- `Store`: the objects, the open watches with what was told to them, and the next version.
- `Store.create`, `Store.upsert`, `Store.replace`, `Store.modify`, `Store.remove`: the writes.
- `Store.list`: the view: the objects that a selector means, in the order of their names.
- `Store.watch`, `Store.publish`, `Store.closeWatches`, `Store.dropWatch`: the watches. A watch is
  first told about the objects that are there when it starts.
-/

namespace InnerLoop

/-- An open watch. -/
structure Subscription (κ : Type) where
  selector : Selector
  /-- What was told to it and not yet taken. -/
  queue : List (WatchEvent κ)
  /-- Whether anything more can be told to it. -/
  live : Bool := true
  /-- Whether it was told about the objects that were there. -/
  started : Bool := true
  deriving Inhabited

/-- The objects of one kind. -/
structure Store (κ : Type) [Resource κ] where
  objects : SortedMap String κ := {}
  /-- The open watches, by their handles. -/
  watches : List (Nat × Subscription κ) := []
  nextVersion : Nat := 1
  nextHandle : Nat := 0
  deriving Inhabited

namespace Store

variable {κ : Type} [Resource κ]

/-! ## Watches -/

/-- Whether a selector means an object. -/
def inScope (s : Selector) (o : κ) : Bool :=
  s.accepts (Resource.nameOf o) (Resource.labelsOf o)

/-- Whether an event concerns a selector; the end of a watch concerns all. -/
def concerns (s : Selector) : WatchEvent κ → Bool
  | .object _ o => inScope s o
  | .error _ => true

/-- The watch after an event is told to it, if it can hear it and the event concerns it. -/
def Subscription.tell (e : WatchEvent κ) (s : Subscription κ) : Subscription κ :=
  if s.live && s.started && concerns s.selector e then { s with queue := s.queue ++ [e] } else s

/-- Tells an event to every watch that it concerns. -/
def publish (st : Store κ) (e : WatchEvent κ) : Store κ :=
  { st with watches := st.watches.map fun w => (w.1, Subscription.tell e w.2) }

/-- The objects that a selector means, in the order of their names. -/
def list (st : Store κ) (s : Selector) : List κ := st.objects.values.filter (inScope s)

/-- Opens a watch that starts at once, and tells it about the objects that are there. Answers its
handle. -/
def watch (st : Store κ) (s : Selector) : Nat × Store κ :=
  let w : Subscription κ := { selector := s, queue := (st.list s).map (.object .added) }
  (st.nextHandle, { st with
    watches := st.watches ++ [(st.nextHandle, w)], nextHandle := st.nextHandle + 1 })

/-- Opens a watch that starts when it is first looked at. Answers its handle. -/
def watchLater (st : Store κ) (s : Selector) : Nat × Store κ :=
  let w : Subscription κ := { selector := s, queue := [], started := false }
  (st.nextHandle, { st with
    watches := st.watches ++ [(st.nextHandle, w)], nextHandle := st.nextHandle + 1 })

/-- Starts a watch that has not been started. -/
def startWatch (st : Store κ) (handle : Nat) : Store κ :=
  { st with watches := st.watches.map fun w =>
      if w.1 = handle ∧ !w.2.started ∧ w.2.live then
        (w.1, { w.2 with started := true
                         queue := (st.list w.2.selector).map (.object .added) })
      else w }

/-- The watch of a handle. -/
def subscription? (st : Store κ) (handle : Nat) : Option (Subscription κ) :=
  st.watches.lookup handle

/-- Ends all watches; what was told to them can still be taken. -/
def closeWatches (st : Store κ) : Store κ :=
  { st with watches := st.watches.map fun w => (w.1, { w.2 with live := false }) }

/-- Gives a watch up. -/
def dropWatch (st : Store κ) (handle : Nat) : Store κ :=
  { st with watches := st.watches.filter fun w => w.1 ≠ handle }

/-- Takes everything that was told to a watch. -/
def takeEvents (st : Store κ) (handle : Nat) : Store κ :=
  { st with watches := st.watches.map fun w =>
      if w.1 = handle then (w.1, { w.2 with queue := [] }) else w }

/-- How many watches can still be told something. -/
def activeWatches (st : Store κ) : Nat := (st.watches.filter (·.2.live)).length

/-! ## Objects -/

/-- The object of a name. -/
def get (st : Store κ) (name : String) : Except ClusterFault κ :=
  match st.objects.find? name with
  | some o => .ok o
  | none => .error (.notFound (Resource.kind κ) name)

/-- Whether there is an object of a name. -/
def contains (st : Store κ) (name : String) : Bool := st.objects.contains name

/-- Files an object under its name, whatever is there, with a new version. -/
def upsert (st : Store κ) (o : κ) : κ × Store κ :=
  let o := Resource.withVersion (toString st.nextVersion) o
  let name := Resource.nameOf o
  let change : Change := if st.contains name then .modified else .added
  let st := { st with objects := st.objects.insert name o, nextVersion := st.nextVersion + 1 }
  (o, st.publish (.object change o))

/-- Files a new object; there must be none of its name. -/
def create (st : Store κ) (o : κ) : Except ClusterFault (κ × Store κ) :=
  let name := Resource.nameOf o
  if st.contains name then .error (.conflict (Resource.kind κ) name) else .ok (st.upsert o)

/-- Files an object in the place of the one of its name, which must have the version that is sent
along, if one is. -/
def replace (st : Store κ) (o : κ) : Except ClusterFault (κ × Store κ) := do
  let name := Resource.nameOf o
  let current ← st.get name
  match Resource.versionOf o with
  | none => return st.upsert o
  | some sent =>
    if Resource.versionOf current = some sent then return st.upsert o
    else throw (.conflict (Resource.kind κ) name)

/-- Changes the object of a name, whatever its version. -/
def modify (st : Store κ) (name : String) (f : κ → κ) : Except ClusterFault (κ × Store κ) := do
  let o ← st.get name
  return st.upsert (f o)

/-- Removes the object of a name. -/
def remove (st : Store κ) (name : String) : Except ClusterFault (κ × Store κ) := do
  let o ← st.get name
  return (o, { st with objects := st.objects.erase name }.publish (.object .deleted o))

end Store

end InnerLoop
