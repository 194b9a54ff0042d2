import InnerLoop.Api.Call
import InnerLoop.Watch.Event

/-!
# Following a collection

A feed follows the objects of a selector on a server: it lists them, part by part, and then watches
for changes from the version of the list on. After a failure it goes on as far back as it has to.

- `FeedItem`: what a feed tells, and `FeedFault.message`, its troubles in words.
- `Feed`, `Stage`, `Feed.move`: where a feed stands and how it goes on, one step at a time.
- `relay`: the watch events of what a feed tells; they end with the first trouble.
-/

namespace InnerLoop.Api

open Json

/-! ## What a feed tells -/

/-- A trouble of a feed. -/
inductive FeedFault where
  /-- The objects could not be listed. -/
  | listFailed (fault : ApiFault)
  /-- The watch could not be asked for. -/
  | startFailed (fault : ApiFault)
  /-- The watch tells of a trouble of the server. -/
  | told (status : ApiStatus)
  /-- A line of the watch is no event. -/
  | watchFailed (fault : ApiFault)
  /-- It is not known from which version on to watch. -/
  | noVersion
  deriving DecidableEq, Inhabited, Repr

/-- The wording of a trouble. -/
def FeedFault.message : FeedFault → String
  | listFailed fault => "failed to perform initial object list: " ++ fault.describe
  | startFailed fault => "failed to start watching object: " ++ fault.describe
  | told s => "error returned by apiserver during watch: " ++ s.message ++ ": " ++ s.reason
  | watchFailed fault => "watch stream failed: " ++ fault.describe
  | noVersion =>
    "no metadata.resourceVersion in watch result (does resource support watch?)"

/-- What a feed tells. -/
inductive FeedItem (κ : Type) where
  /-- A list of the objects begins. -/
  | init
  /-- An object of the list. -/
  | initApply (object : κ)
  /-- The list is complete. -/
  | initDone
  /-- An object is new or was changed. -/
  | apply (object : κ)
  /-- An object was deleted. -/
  | delete (object : κ)
  | error (fault : FeedFault)
  deriving Inhabited

namespace FeedItem

variable {κ : Type}

/-- Whether something went wrong. -/
def isError : FeedItem κ → Bool
  | error _ => true
  | _ => false

/-- The watch event of an item. That a list begins or ends is none. -/
def event? : FeedItem κ → Option (WatchEvent κ)
  | init => none
  | initApply o => some (.object .added o)
  | initDone => none
  | apply o => some (.object .modified o)
  | delete o => some (.object .deleted o)
  | error fault => some (.error fault.message)

theorem event?_isSome_of_isError {item : FeedItem κ} (h : item.isError = true) :
    item.event?.isSome := by
  cases item <;> simp_all [isError, event?]

end FeedItem

/-- The watch events of what a feed tells, up to and with its first trouble. -/
def relay {κ : Type} : List (FeedItem κ) → List (WatchEvent κ)
  | [] => []
  | item :: r =>
    match item.event? with
    | none => relay r
    | some e => e :: (if item.isError then [] else relay r)

/-! ## Lines of a watch -/

/-- What a line of a watch says. -/
inductive WatchLine (κ : Type) where
  /-- An object is new or was changed. -/
  | apply (object : κ)
  | delete (object : κ)
  /-- All changes up to a version were told. -/
  | bookmark (version : String)
  | told (status : ApiStatus)
  /-- The line says nothing of this kind. -/
  | failed (fault : ApiFault)
  deriving Inhabited

namespace WatchLine

variable {κ : Type}

/-- Reads the version of a bookmark. -/
def decodeBookmark : Decoder String := fun v => do
  let (ms, _) ← open? ["apiVersion", "kind", "metadata"] v
  let _ ← required asText ms "apiVersion"
  let _ ← required asText ms "kind"
  let metadata ← required (shaped ["resourceVersion", "annotations"] 0) ms "metadata"
  let _ ← present asTextMap metadata "annotations" .empty
  required asText metadata "resourceVersion"

/-- The words for what happened. -/
def types : List String := ["ADDED", "MODIFIED", "DELETED", "BOOKMARK", "ERROR"]

/-- The members of a line as they are read. An object that is told of before it is said what happened
is kept until then, and all of it has to stand for something, since it is not known yet what is asked
for in it. -/
def settled? (ms : Written.Members) : Option Written.Members :=
  match ms.find? fun m => m.1 = "type" ∨ m.1 = "object" with
  | some ("object", o) =>
    if o.value?.isSome then
      some (ms.map fun m => if m.1 = "object" then (m.1, m.2.kept) else m)
    else none
  | _ => some ms

/-- Reads a line that says what happened. -/
def decode (item : Decoder κ) : Decoder (WatchLine κ) := fun v => do
  let ms ← settled? (← shaped ["type", "object"] 2 v)
  let type ← required (asWord (fun s => if s ∈ types then some s else none) "") ms "type"
  match type with
  | "ADDED" => (required item ms "object").map apply
  | "MODIFIED" => (required item ms "object").map apply
  | "DELETED" => (required item ms "object").map delete
  | "BOOKMARK" => (required decodeBookmark ms "object").map bookmark
  | "ERROR" => (required ApiStatus.decode ms "object").map told
  | _ => some (failed .unreadable)

/-- What a line says: what happened, or why the server refused the watch. A line that breaks off
where it still could have said what happened says nothing. -/
def ofText? (item : Decoder κ) (line : String) : Option (WatchLine κ) :=
  match Written.ofText line with
  | .malformed => some (failed .unreadable)
  | .broken w => if (decode item w).isSome then none else some (failed .unreadable)
  | .whole w =>
    match decode item w with
    | some l => some l
    | none =>
      match ApiStatus.decode w with
      | some s => some (failed (.refused s))
      | none => some (failed .unreadable)

/-- A line without the carriage return that may end it. -/
def withoutReturn (line : List Char) : List Char :=
  match line.getLast? with
  | some '\r' => line.dropLast
  | _ => line

/-- What the lines of a body say. -/
def ofBody (item : Decoder κ) (body : String) : List (WatchLine κ) :=
  (Text.splitAll '\n' body.toList).filterMap fun line =>
    ofText? item (String.ofList (withoutReturn line))

end WatchLine

/-! ## Where a feed stands -/

/-- What is followed. -/
structure Feed (κ : Type) where
  collection : Collection
  ns : String
  selector : Selector
  decode : Decoder κ

/-- The feed of the objects of a kind. -/
def Feed.ofKind (k : Kind) (ns : String) (s : Selector) : Feed k.Object :=
  ⟨collectionOf k, ns, s, k.decode⟩

/-- Where a feed stands. -/
inductive Stage (κ : Type) where
  /-- Nothing is known. -/
  | start
  /-- Objects of a part of the list are to be told; `resume` is where the next part goes on, and
  `version` the version of the part. -/
  | listing (resume version : Option String) (objects : List κ)
  /-- The list is complete. -/
  | listed (version : String)
  /-- Lines of a watch are to be told. -/
  | watching (version : String) (lines : List (WatchLine κ))
  deriving Inhabited

/-- A bound on how many steps a feed makes from a stage before the server has to be asked. -/
def Stage.rank {κ : Type} : Stage κ → Nat
  | start => 2
  | listing _ _ l => l.length + 1
  | listed _ => 0
  | watching _ l => l.length + 1

/-- How a feed goes on. -/
inductive Move (κ : Type) where
  /-- It tells something. -/
  | tell (item : FeedItem κ) (next : Stage κ)
  /-- It goes on without a word. -/
  | pass (next : Stage κ)
  /-- It asks for the next part of the list. -/
  | askList (request : HttpRequest)
  /-- It asks for the changes after a version. -/
  | askWatch (request : HttpRequest) (version : String)

namespace Feed

variable {κ : Type} (f : Feed κ)

/-- The request for a part of the list. -/
def listRequest (resume : Option String) : Except ApiFault HttpRequest :=
  toCollection .get f.collection f.ns
    (selectorQuery f.selector ++ [("limit", "500")] ++ resume.toList.map ("continue", ·))

/-- The request for the changes after a version. -/
def watchRequest (version : String) : Except ApiFault HttpRequest :=
  toCollection .get f.collection f.ns
    ([("watch", "true"), ("timeoutSeconds", "290")] ++ selectorQuery f.selector ++
      [("allowWatchBookmarks", "true"), ("resourceVersion", version)])

/-- A text that is not empty. -/
def nonEmpty? (s : Option String) : Option String := s.filter (· ≠ "")

/-- What an object in a watch leads to: a version to go on from, or none. -/
def tellVersioned [Resource κ] (o : κ) (item : FeedItem κ) (rest : List (WatchLine κ)) : Move κ :=
  match nonEmpty? (Resource.versionOf o) with
  | some version => .tell item (.watching version rest)
  | none => .tell (.error .noVersion) .start

/-- How a feed goes on. -/
def move [Resource κ] : Stage κ → Move κ
  | .start => .tell .init (.listing none none [])
  | .listing resume version (o :: r) => .tell (.initApply o) (.listing resume version r)
  | .listing none (some version) [] => .tell .initDone (.listed version)
  | .listing resume _ [] =>
    match f.listRequest resume with
    | .ok r => .askList r
    | .error fault => .tell (.error (.listFailed fault)) .start
  | .listed version =>
    match f.watchRequest version with
    | .ok r => .askWatch r version
    | .error fault => .tell (.error (.startFailed fault)) (.listed version)
  | .watching version [] => .pass (.listed version)
  | .watching version (line :: r) =>
    match line with
    | .apply o => tellVersioned o (.apply o) r
    | .delete o => tellVersioned o (.delete o) r
    | .bookmark version => .pass (.watching version r)
    -- Code 410 says that the version is too old to go on from.
    | .told s => .tell (.error (.told s)) (if s.code = 410 then .start else .watching version r)
    | .failed fault => .tell (.error (.watchFailed fault)) (.watching version r)

/-- Where a feed stands after a part of the list, or why it has to start again. -/
def afterList (a : Answer) : Except FeedFault (Stage κ) :=
  match a.read (ObjectList.decode f.decode) with
  | .error fault => .error (.listFailed fault)
  | .ok l =>
    let version := nonEmpty? l.metadata.resourceVersion
    let resume := nonEmpty? l.metadata.resume
    -- Only the last part has to have a version.
    if version.isNone ∧ resume.isNone then .error .noVersion
    else .ok (.listing resume version l.items)

/-- Where a feed stands after an answer with the changes since a version. -/
def afterWatch (version : String) (a : Answer) : Stage κ :=
  .watching version (WatchLine.ofBody f.decode a.body)

/-! ## How long a feed goes on by itself -/

variable {f} [Resource κ] {s next : Stage κ} {item : FeedItem κ}

theorem rank_tellVersioned {version : String} {o : κ} {line : WatchLine κ}
    {rest : List (WatchLine κ)} {told : FeedItem κ}
    (h : tellVersioned o told rest = .tell item next) (hi : item.isError = false) :
    next.rank < (Stage.watching version (line :: rest)).rank := by
  unfold tellVersioned at h
  split at h <;> cases h
  · simp [Stage.rank]
  · simp [FeedItem.isError] at hi

/-- Unless something goes wrong, telling brings a feed closer to asking the server. -/
theorem rank_of_tell (h : f.move s = .tell item next) (hi : item.isError = false) :
    next.rank < s.rank := by
  unfold move at h
  split at h
  · cases h; simp [Stage.rank]
  · cases h; simp [Stage.rank]
  · cases h; simp [Stage.rank]
  · split at h <;> cases h
    simp [FeedItem.isError] at hi
  · split at h <;> cases h
    simp [FeedItem.isError] at hi
  · cases h
  · split at h
    · exact rank_tellVersioned h hi
    · exact rank_tellVersioned h hi
    · cases h
    · cases h; simp [FeedItem.isError] at hi
    · cases h; simp [FeedItem.isError] at hi

/-- Going on without a word brings a feed closer to asking the server. -/
theorem rank_of_pass (h : f.move s = .pass next) : next.rank < s.rank := by
  unfold move at h
  split at h
  · cases h
  · cases h
  · cases h
  · split at h <;> cases h
  · split at h <;> cases h
  · cases h; simp [Stage.rank]
  · split at h
    · unfold tellVersioned at h; split at h <;> cases h
    · unfold tellVersioned at h; split at h <;> cases h
    · cases h; simp [Stage.rank]
    · cases h
    · cases h

end Feed

end InnerLoop.Api
