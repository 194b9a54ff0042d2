import InnerLoop.Transfer.Manifest
import InnerLoop.Text.Utf8

/-!
# Archives

An archive is written in blocks of 512 bytes. Every entry has a header block and, if it is a file,
its content filled up to whole blocks; two blocks of zeros end the archive. A name, or the target
of a link, that does not fit the 100 bytes of its field goes into an entry of its own before.

- `Header`: what a header block says, and `Header.bytes`, the block.
- `nameField`: a name as it stands in its field.
- `Manifest.writing`: the writing of the archive of a manifest, part by part, and why it breaks off
  if it does.
- `Manifest.archive`: the complete archive.
-/

namespace InnerLoop

/-! ## Headers -/

/-- What an entry of an archive is. -/
inductive EntryType where
  | file | dir | symlink
  /-- The name of the next entry. -/
  | longName
  /-- The link target of the next entry. -/
  | longLink
  deriving DecidableEq, Inhabited, Repr

/-- The character for a type of entry. -/
def EntryType.flag : EntryType → Char
  | .file => '0'
  | .dir => '5'
  | .symlink => '2'
  | .longName => 'L'
  | .longLink => 'K'

/-- What a header block says. -/
structure Header where
  name : List UInt8
  mode : Nat
  size : Nat := 0
  modified : Nat := 0
  type : EntryType
  link : List UInt8 := []
  deriving DecidableEq, Inhabited

namespace Archive

/-- How many bytes a block has. -/
def blockSize : Nat := 512

/-- How many bytes the field of a name has. -/
def nameSize : Nat := 100

/-- So many bytes of zero. -/
def zeros (n : Nat) : List UInt8 := List.replicate n 0

/-- The bytes in a field of `width` bytes. -/
def field (width : Nat) (bytes : List UInt8) : List UInt8 :=
  bytes.take width ++ zeros (width - bytes.length)

/-- The octal digits of `n`, in a field of `width` bytes that ends in a byte of zero. -/
def octal (width n : Nat) : List UInt8 :=
  let digits := (Nat.toDigits 8 n).map fun c => UInt8.ofNat c.toNat
  let digits := digits.drop (digits.length - (width - 1))
  List.replicate (width - 1 - digits.length) 48 ++ digits ++ [0]

/-- What marks the format. -/
def magic : List UInt8 := Text.bytesOf "ustar  " ++ [0]

/-- The fields of a header block, with `checksum` in the place of the sum. -/
def headerWith (h : Header) (checksum : List UInt8) : List UInt8 :=
  field blockSize (
    field nameSize h.name ++ octal 8 h.mode ++ octal 8 0 ++ octal 8 0 ++ octal 12 h.size ++
    octal 12 h.modified ++ checksum ++ [UInt8.ofNat h.type.flag.toNat] ++
    field nameSize h.link ++ magic)

/-- The sum of some bytes. -/
def byteSum (bytes : List UInt8) : Nat := bytes.foldl (fun n b => n + b.toNat) 0

/-- What stands in the place of the sum while it is taken. -/
def blankChecksum : List UInt8 := List.replicate 8 32

end Archive

/-- The block of a header. -/
def Header.bytes (h : Header) : List UInt8 :=
  Archive.headerWith h
    (Archive.octal 8 (Archive.byteSum (Archive.headerWith h Archive.blankChecksum)))

/-! ## Names in their field -/

/-- A name as far as it stands in its field, and what kept the rest out. -/
structure NameField where
  written : List Char := []
  fault : Option NameFault := none
  deriving DecidableEq, Inhabited

namespace NameField

/-- The field with more text, if there is room for it. -/
def put (f : NameField) (cs : List Char) : NameField :=
  if f.fault.isSome then f
  else if Archive.nameSize < (String.ofList (f.written ++ cs)).utf8ByteSize then
    { f with fault := some .tooLong }
  else if '\x00' ∈ cs then { f with fault := some .nulByte }
  else { f with written := f.written ++ cs }

/-- The field that refuses the name. -/
def refuse (f : NameField) (fault : NameFault) : NameField :=
  if f.fault.isSome then f else { f with fault := some fault }

/-- The field with one more step, after a slash if there is a step before it. -/
def step (f : NameField) (cs : List Char) : NameField :=
  (if f.written = [] ∨ f.written = ['/'] then f else f.put ['/']).put cs

end NameField

/-- What a field is for. -/
inductive FieldUse where
  /-- A name: a relative path that does not lead up. -/
  | name
  /-- What a name starts with that stands in full in the entry before. -/
  | shortened
  /-- The target of a link: any path. -/
  | link
  deriving DecidableEq, Inhabited, Repr

/-- The component `c` put into a field; `only` and `last` say where in its path it stands. -/
def NameField.component (use : FieldUse) (only last : Bool) (f : NameField) (c : Component) :
    NameField :=
  match use, c with
  | _, .normal n => f.step n.toList
  | .link, .root => f.step ['/']
  | _, .root => f.refuse .absolute
  | .link, .parent => f.step ['.', '.']
  | .shortened, .parent => if last then f.step ['.', '.'] else f.refuse .parent
  | .name, .parent => f.refuse .parent
  | .link, .current => f.step ['.']
  | _, .current => if only then f.step ['.'] else f

/-- Some components put into a field, one after another. -/
def NameField.components (use : FieldUse) (only : Bool) (f : NameField) :
    List Component → NameField
  | [] => f
  | c :: r => NameField.components use only (f.component use only r.isEmpty c) r

/-- A path as it stands in its field: its components with slashes between them, and a slash at the
end where the path has one. -/
def nameField (use : FieldUse) (p : Path) : NameField :=
  let cs := p.components
  let f := NameField.components use (cs.length = 1) {} cs
  let f := if f.written = [] then f.refuse .empty else f
  if p.endsInSlash then f.put ['/'] else f

/-! ## Writing -/

/-- Some writes, and why they break off if they do. -/
structure Writes where
  chunks : List (List UInt8) := []
  fault : Option FileFault := none
  deriving DecidableEq, Inhabited

namespace Writes

/-- One write. -/
def one (chunk : List UInt8) : Writes := { chunks := [chunk] }

/-- Writes that break off before the first. -/
def failed (fault : FileFault) : Writes := { fault := some fault }

/-- Writes and, if they do not break off, those after them. -/
def andThen (a b : Writes) : Writes :=
  if a.fault.isSome then a else { b with chunks := a.chunks ++ b.chunks }

end Writes

namespace Archive

/-- The writes of some content: the bytes, and what fills up the last block. -/
def contentWrites (content : List UInt8) : Writes :=
  let rest := content.length % blockSize
  { chunks := (if content.isEmpty then [] else [content]) ++
      if rest = 0 then [] else [zeros (blockSize - rest)] }

/-- The entry that holds a name, or the target of a link, in full. -/
def longEntry (type : EntryType) (text : String) : Writes :=
  let content := Text.bytesOf text ++ [0]
  let header : Header := {
    name := Text.bytesOf "././@LongLink", mode := 0o644, size := content.length, type }
  (Writes.one header.bytes).andThen (contentWrites content)

/-- The whole characters among the first `n` bytes of a text. -/
def firstBytes (n : Nat) : List Char → List Char
  | [] => []
  | c :: r => if c.utf8Size ≤ n then c :: firstBytes (n - c.utf8Size) r else []

/-- Some bytes over those that stood in their place before. -/
def laidOver (bytes before : List UInt8) : List UInt8 := bytes ++ before.drop bytes.length

/-- What is written before the header of an entry called `name`, and the name in that header. -/
def nameWrites (name : String) : Writes × List UInt8 :=
  let f := nameField .name ⟨name⟩
  match f.fault with
  | none => (Writes.mk [] none, Text.bytesOf (String.ofList f.written))
  | some fault =>
    -- A name that is short enough was refused for what it says, not for its length.
    if name.utf8ByteSize < nameSize then
      (Writes.failed (.badName fault (String.ofList f.written)), [])
    else
      -- The full name goes ahead; the characters that it starts with still fill the field.
      let short := nameField .shortened ⟨String.ofList (firstBytes nameSize name.toList)⟩
      let shown := laidOver (Text.bytesOf (String.ofList short.written))
        (Text.bytesOf (String.ofList f.written))
      let after : Writes := match short.fault with
        | none => {}
        | some fault => .failed (.badName fault (Text.decodeLossy shown))
      ((longEntry .longName name).andThen after, shown)

/-- What is written before the header of a link to `target`, and the target in that header. -/
def linkWrites (target : String) : Writes × List UInt8 :=
  let f := nameField .link ⟨target⟩
  (if f.fault.isSome then longEntry .longLink target else {},
    Text.bytesOf (String.ofList f.written))

/-- The seconds of a time, as a header counts them. -/
def headerTime (t : Timestamp) : Nat := t.secs.toNat

/-- The header of a node without its name, and the target if the node is a link. -/
def nodeHeader? : Node → Option (Header × List UInt8 × Option String)
  | .file content mode modified =>
    some ({ name := [], mode := 0o100000 + mode, size := content.length,
            modified := headerTime modified, type := .file }, content, none)
  | .dir mode => some ({ name := [], mode := 0o040000 + mode, type := .dir }, [], none)
  | .symlink target modified =>
    some ({ name := [], mode := 0o120777, modified := headerTime modified, type := .symlink },
      [], some target)
  | .socket _ => none

/-- The writes of one entry. -/
def entryWrites (t : FileTree) (e : ManifestEntry) : Writes :=
  match t.lstat e.source with
  | .error fault => .failed (.atMetadata e.source.text fault)
  | .ok (_, n) =>
    match nodeHeader? n with
    | none => .failed (.socket e.source.text)
    | some (header, content, target) =>
      let (before, name) := nameWrites e.name
      let (linkBefore, link) := match target with
        | some target => linkWrites target
        | none => ({}, [])
      (before.andThen linkBefore).andThen
        ((Writes.one { header with name, link }.bytes).andThen (contentWrites content))

end Archive

/-- What ends an archive. -/
def Archive.trailer : List UInt8 := zeros (2 * blockSize)

/-- A part of an archive that is written at once. -/
structure Part where
  bytes : List UInt8
  /-- The failure of the writing if nobody reads the part. -/
  unread : Failure
  deriving DecidableEq, Inhabited

/-- A part that is written on behalf of a local file. -/
def Part.of (source : Path) (bytes : List UInt8) : Part where
  bytes
  unread := .malformed source.text .brokenPipe

/-- The writing of an archive: its parts, one after another, and the failure that it ends with if it
breaks off. -/
structure Writing where
  parts : List Part := []
  failure : Option Failure := none
  deriving DecidableEq, Inhabited

/-- The writing of an archive that breaks off after some parts. The archive is ended all the same,
and it does not matter any more whether somebody reads that. -/
def Writing.broken (parts : List Part) (failure : Failure) : Writing where
  parts := parts ++ [{ bytes := Archive.trailer, unread := failure }]
  failure := some failure

/-- The writing of some entries. What ends the archive is written on behalf of the last of them;
`last` is the one before them. -/
def entriesWriting (t : FileTree) (last : Path) : List ManifestEntry → Writing
  | [] => { parts := [.of last Archive.trailer] }
  | e :: r =>
    let w := Archive.entryWrites t e
    let parts := w.chunks.map (Part.of e.source)
    match w.fault with
    | some fault => .broken parts (.malformed e.source.text fault)
    | none =>
      let rest := entriesWriting t e.source r
      { rest with parts := parts ++ rest.parts }

/-- The writing of the archive of a manifest. -/
def Manifest.writing (t : FileTree) (m : Manifest) : Writing := entriesWriting t ⟨""⟩ m.entries

/-- All bytes of a writing. -/
def Writing.bytes (w : Writing) : List UInt8 := w.parts.flatMap Part.bytes

/-- The complete archive of a manifest. -/
def Manifest.archive (t : FileTree) (m : Manifest) : Except Failure (List UInt8) :=
  let w := m.writing t
  match w.failure with
  | some failure => .error failure
  | none => .ok w.bytes

end InnerLoop
