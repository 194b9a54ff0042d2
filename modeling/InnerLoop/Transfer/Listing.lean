import InnerLoop.Transfer.Archive

/-!
# Reading an archive

- `listArchive`: what the header blocks of an archive say, with their contents, up to the first
  block of zeros, and how many bytes follow from there.
-/

namespace InnerLoop

/-- An entry as it is read back. -/
structure ListedEntry where
  name : List UInt8
  /-- The octal digits of the mode. -/
  mode : List UInt8
  size : Nat
  type : UInt8
  link : List UInt8
  magic : List UInt8
  /-- Whether the sum that the header holds is its sum. -/
  intact : Bool
  content : List UInt8
  deriving DecidableEq, Inhabited

namespace Archive

/-- The bytes before the first byte of zero. -/
def untilZero (bytes : List UInt8) : List UInt8 := bytes.takeWhile (· ≠ 0)

/-- The octal digits that a field starts with, after blanks. -/
def octalDigits (bytes : List UInt8) : List UInt8 :=
  (bytes.dropWhile (· = 32)).takeWhile fun b => 48 ≤ b ∧ b < 56

/-- The number in a field of octal digits. -/
def readOctal (bytes : List UInt8) : Nat :=
  (octalDigits bytes).foldl (fun n b => n * 8 + (b.toNat - 48)) 0

/-- The bytes of a block from `start` on, `length` of them. -/
def slice (block : List UInt8) (start length : Nat) : List UInt8 := (block.drop start).take length

/-- A header block as it is read back, with the bytes that follow it. -/
def readHeader (block rest : List UInt8) : ListedEntry :=
  let size := readOctal (slice block 124 12)
  let blanked := block.take 148 ++ blankChecksum ++ block.drop 156
  { name := untilZero (block.take nameSize)
    mode := (octalDigits (slice block 100 8)).dropWhile (· = 48)
    size
    type := block.getD 156 0
    link := untilZero (slice block 157 nameSize)
    magic := slice block 257 8
    intact := readOctal (slice block 148 8) = byteSum blanked
    content := rest.take size }

/-- Reads at most `n` entries. -/
def listEntries : Nat → List UInt8 → List ListedEntry × Nat
  | 0, bytes => ([], bytes.length)
  | n + 1, bytes =>
    let block := bytes.take blockSize
    if bytes.length < blockSize ∨ block.all (· = 0) then ([], bytes.length)
    else
      let rest := bytes.drop blockSize
      let e := readHeader block rest
      let padded := (e.size + blockSize - 1) / blockSize * blockSize
      let (entries, trailing) := listEntries n (rest.drop padded)
      (e :: entries, trailing)

end Archive

/-- The entries of an archive, and how many bytes follow them. -/
def listArchive (bytes : List UInt8) : List ListedEntry × Nat :=
  Archive.listEntries (bytes.length / Archive.blockSize + 1) bytes

end InnerLoop
