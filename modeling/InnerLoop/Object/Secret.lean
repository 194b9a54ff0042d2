import InnerLoop.Object.Pod

/-!
# Secrets and persistent volume claims

- `Secret`: named data, kept in its encoded form; only data in the one written form of base 64 is
  read.
- `Claim`: a claim on persistent storage of some size.
-/

namespace InnerLoop

open Json

/-! ## Secrets -/

/-- The value of a digit of base 64. -/
def base64Digit? (c : Char) : Option Nat :=
  if 'A' ≤ c ∧ c ≤ 'Z' then some (c.toNat - 65)
  else if 'a' ≤ c ∧ c ≤ 'z' then some (c.toNat - 71)
  else if '0' ≤ c ∧ c ≤ '9' then some (c.toNat + 4)
  else if c = '+' then some 62
  else if c = '/' then some 63
  else none

/-- Whether the text is the written form of some bytes: groups of four digits, the last one
padded, with no bit set that belongs to no byte. -/
def isBase64 : List Char → Bool
  | [] => true
  | [a, b, '=', '='] => (base64Digit? a).isSome && ((base64Digit? b).any (· % 16 = 0))
  | [a, b, c, '='] =>
    (base64Digit? a).isSome && (base64Digit? b).isSome && ((base64Digit? c).any (· % 4 = 0))
  | a :: b :: c :: d :: r =>
    (base64Digit? a).isSome && (base64Digit? b).isSome && (base64Digit? c).isSome &&
      (base64Digit? d).isSome && isBase64 r
  | _ => false

/-- Reads bytes in their written form; null stands for none. -/
def asBase64 : Decoder String
  | .null => some ""
  | w => (asText w).filter fun s => isBase64 s.toList

/-- A secret. -/
structure Secret where
  metadata : ObjectMeta := {}
  data : Option TextMap := none
  deriving DecidableEq, Inhabited

instance : Resource Secret where
  kind := "Secret"
  apiVersion := "v1"
  metadata := Secret.metadata
  withMetadata m s := { s with metadata := m }

/-- Reads a secret. -/
def Secret.decode : Decoder Secret := fun v => do
  let ms ← object? v
  guard (isOfKind Secret ms)
  let metadata ← defaulted ObjectMeta.decode ms "metadata" {}
  let data ← optional (asMap asBase64) ms "data"
  some { metadata, data }

/-- Writes a secret. -/
def Secret.encode (s : Secret) : Json :=
  objectOf (Resource.header Secret ++ [
    always "metadata" s.metadata.encode, ifSome "data" ofTextMap s.data])

/-! ## Claims -/

/-- What a claim asks for. -/
structure ClaimSpec where
  accessModes : Option (List String) := none
  resources : Option ResourceNeeds := none
  deriving DecidableEq, Inhabited

/-- A claim on persistent storage. -/
structure Claim where
  metadata : ObjectMeta := {}
  spec : Option ClaimSpec := none
  deriving DecidableEq, Inhabited

instance : Resource Claim where
  kind := "PersistentVolumeClaim"
  apiVersion := "v1"
  metadata := Claim.metadata
  withMetadata m c := { c with metadata := m }

/-- Reads what a claim asks for. -/
def ClaimSpec.decode : Decoder ClaimSpec := fun v => do
  let ms ← object? v
  let accessModes ← optional (asList asText) ms "accessModes"
  let resources ← optional ResourceNeeds.decode ms "resources"
  some { accessModes, resources }

/-- Writes what a claim asks for. -/
def ClaimSpec.encode (s : ClaimSpec) : Json :=
  objectOf [ifSome "accessModes" ofTexts s.accessModes,
    ifSome "resources" ResourceNeeds.encode s.resources]

/-- Reads a claim. -/
def Claim.decode : Decoder Claim := fun v => do
  let ms ← object? v
  guard (isOfKind Claim ms)
  let metadata ← defaulted ObjectMeta.decode ms "metadata" {}
  let spec ← optional ClaimSpec.decode ms "spec"
  some { metadata, spec }

/-- Writes a claim. -/
def Claim.encode (c : Claim) : Json :=
  objectOf (Resource.header Claim ++ [
    always "metadata" c.metadata.encode, ifSome "spec" ClaimSpec.encode c.spec])

/-- What a claim for storage of a size, to be written by one node, asks for. -/
def ClaimSpec.ofSize (size : String) : ClaimSpec where
  accessModes := some ["ReadWriteOnce"]
  resources := some { requests := some (.singleton "storage" size) }

end InnerLoop
