import InnerLoop.Failure
import InnerLoop.Json.Decode
import InnerLoop.Json.Parser
import InnerLoop.Json.Render

/-!
# Answers of an API server

An answer has a status code and a body, or opens a session with a running command.

- `ApiFault`: why a call has no result, and `ApiFault.describe`, its wording.
- `ApiStatus.decode`: what a server says about a refusal.
- `Answer.content`: the body of an answer that is no refusal.
- `Answer.read`: the value that such a body holds.
-/

namespace InnerLoop

/-- Reads what a server says about a refusal. A status and a code have to be there. -/
def ApiStatus.decode : Json.Decoder ApiStatus := fun v => do
  let ms ← Json.shaped ["status", "message", "reason", "code"] 0 v
  let status ← Json.required Json.asText ms "status"
  let message ← Json.present Json.asText ms "message" ""
  let reason ← Json.present Json.asText ms "reason" ""
  let code ← Json.required (Json.asIntBetween 0 65535) ms "code"
  some { status, message, reason, code := code.toNat }

/-- Writes what a server says about a refusal. -/
def ApiStatus.encode (s : ApiStatus) : Json := .record [
  ("status", .text s.status), ("message", .text s.message), ("reason", .text s.reason),
  ("code", Json.ofInt s.code)]

namespace Api

/-- Why a call has no result. -/
inductive ApiFault where
  /-- The server refused the request. -/
  | refused (status : ApiStatus)
  /-- The object that is asked for has no name. -/
  | noName
  /-- A name or a namespace cannot stand in a request. -/
  | badTarget
  /-- The body of the answer is not what was asked for. -/
  | unreadable
  /-- No session was opened. -/
  | noSession
  deriving DecidableEq, Inhabited, Repr

namespace ApiFault

/-- The wording of a fault. -/
def describe : ApiFault → String
  | refused s => s.describe
  | noName => "Failed to build request: failed to validate request: A non-empty name is required"
  | badTarget => "Failed to build request: failed to build request: invalid uri character"
  | unreadable => "Error deserializing response"
  | noSession => "failed to switch protocol"

/-- What a fault means for the cluster's user. -/
def toCluster : ApiFault → ClusterFault
  | refused s => .api s
  | _ => .transport

/-- What a fault means for the user of a named object. -/
def forObject (kind name : String) : ApiFault → ClusterFault
  | refused s => .ofStatus kind name s
  | _ => .transport

end ApiFault

/-! ## Status codes -/

/-- The standard phrases of the codes that refuse a request. -/
def statusPhrases : List (Nat × String) := [
  (400, "Bad Request"), (401, "Unauthorized"), (402, "Payment Required"), (403, "Forbidden"),
  (404, "Not Found"), (405, "Method Not Allowed"), (406, "Not Acceptable"),
  (407, "Proxy Authentication Required"), (408, "Request Timeout"), (409, "Conflict"),
  (410, "Gone"), (411, "Length Required"), (412, "Precondition Failed"),
  (413, "Payload Too Large"), (414, "URI Too Long"), (415, "Unsupported Media Type"),
  (416, "Range Not Satisfiable"), (417, "Expectation Failed"), (418, "I'm a teapot"),
  (421, "Misdirected Request"), (422, "Unprocessable Entity"), (423, "Locked"),
  (424, "Failed Dependency"), (425, "Too Early"), (426, "Upgrade Required"),
  (428, "Precondition Required"), (429, "Too Many Requests"),
  (431, "Request Header Fields Too Large"), (451, "Unavailable For Legal Reasons"),
  (500, "Internal Server Error"), (501, "Not Implemented"), (502, "Bad Gateway"),
  (503, "Service Unavailable"), (504, "Gateway Timeout"), (505, "HTTP Version Not Supported"),
  (506, "Variant Also Negotiates"), (507, "Insufficient Storage"), (508, "Loop Detected"),
  (510, "Not Extended"), (511, "Network Authentication Required")]

/-- A status code and its phrase. -/
def statusLine (code : Nat) : String :=
  toString code ++ " " ++ (statusPhrases.lookup code).getD "<unknown status code>"

/-- Whether a code refuses the request. -/
def isRefusal (code : Nat) : Bool := 400 ≤ code && code ≤ 599

/-- What the body of a refusal says. One that says nothing readable is quoted. -/
def refusalOf (code : Nat) (body : String) : ApiStatus :=
  match (Written.ofText? body).bind ApiStatus.decode with
  | some s => s
  | none => {
      status := statusLine code
      message := Text.quoted body
      reason := "Failed to parse error data"
      code }

/-! ## Answers -/

/-- What a server sends in a session with a running command. -/
structure SessionScript where
  /-- Whether the server first reads all that the command is given. -/
  readsInput : Bool := false
  /-- The frames that it sends, each with the number of its channel. -/
  frames : List (Nat × String) := []
  deriving DecidableEq, Inhabited, Repr

/-- An answer of a server. -/
structure Answer where
  code : Nat := 200
  body : String := ""
  /-- The session that the answer opens, if it does. -/
  session : Option SessionScript := none
  deriving DecidableEq, Inhabited, Repr

namespace Answer

/-- The answer that refuses a request. -/
def refusing (s : ApiStatus) : Answer where
  code := s.code
  body := s.encode.render

/-- The body of an answer that is no refusal. -/
def content (a : Answer) : Except ApiFault String :=
  if isRefusal a.code then .error (.refused (refusalOf a.code a.body)) else .ok a.body

/-- The value that the body of an answer holds. -/
def read {α : Type} (decode : Json.Decoder α) (a : Answer) : Except ApiFault α :=
  match a.content with
  | .error fault => .error fault
  | .ok body =>
    match (Written.ofText? body).bind decode with
    | some v => .ok v
    | none => .error .unreadable

end Answer

end Api

end InnerLoop
