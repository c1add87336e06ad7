import AmneziaBox.Library.Layout
import AmneziaBox.Source.SRS.Binary

/-!
# The mapped form of a rule-set

`common/srs/mmap.go`. The file has a header, the rules in the binary format with the
number of a blob in place of each compiled item, a table of blobs, and the blobs: the
arrays of matchers and address sets as they lie in memory, which `ReadMmap` uses in
place.

Offsets and sizes are numbers without a bound here and wrap where they are stored; a
file has fewer than `2 ^ 63` bytes. `WriteMmap` leaves room for the header and writes it
last; the model gives the finished file. The arrays of a matcher (`domain.Mmap`) are
outside the repository.
-/
namespace AmneziaBox.Source.SRS
open Library

/-! ## Arrays in memory -/

/-- How the elements of a slice lie in memory. -/
structure Cell (α : Type) where
  size : Nat
  encode : α → Bytes
  decode : Bytes → α
  size_pos : 0 < size
  encode_length : ∀ value, (encode value).length = size

def alignMmapOffset (offset : Nat) : Nat := alignUp 8 offset

def writeMmapArray {α : Type} (cell : Cell α) (values : List α) : Bytes :=
  let bytes := values.flatMap cell.encode
  bytes ++ List.replicate (alignMmapOffset bytes.length - bytes.length) 0

/-- The first elements of a slice over the bytes. -/
def elements {α : Type} (cell : Cell α) : Nat → Bytes → List α
  | 0, _ => []
  | count + 1, data => cell.decode (data.take cell.size) :: elements cell count (data.drop cell.size)

def arrayOutOfBounds : String := "rule-set mmap array out of bounds"

/-- `mmapArray`: the array and the bytes behind it. -/
def mmapArray {α : Type} (cell : Cell α) (count : Nat) : Reader (List α) := fun data =>
  if count > data.length / cell.size then .error arrayOutOfBounds
  else
    let length := alignMmapOffset (count * cell.size)
    if length > data.length then .error arrayOutOfBounds
    else .ok (elements cell count data, data.drop length)

section Cells
variable (order : Endian)

def uint64Cell : Cell (BitVec 64) where
  size := 8
  encode value := order.put 8 value.toNat
  decode bytes := BitVec.ofNat 64 (order.get bytes)
  size_pos := by decide
  encode_length _ := order.put_length _ _

def byteCell : Cell Byte where
  size := 1
  encode value := [value]
  decode bytes := bytes.headD 0
  size_pos := by decide
  encode_length _ := rfl

def int32Cell : Cell (BitVec 32) where
  size := 4
  encode value := order.put 4 value.toNat
  decode bytes := BitVec.ofNat 32 (order.get bytes)
  size_pos := by decide
  encode_length _ := order.put_length _ _

/-- `ipset.Range4`: two `uint32`. -/
def range4Cell : Cell Interval where
  size := 8
  encode range := order.put 4 range.lo ++ order.put 4 range.hi
  decode bytes := ⟨order.get (bytes.take 4), order.get (bytes.drop 4)⟩
  size_pos := by decide
  encode_length _ := by simp

/-- `ipset.Range6`: two addresses of 16 bytes. -/
def range6Cell : Cell Interval where
  size := 32
  encode range := bigEndian 16 range.lo ++ bigEndian 16 range.hi
  decode bytes := ⟨ofBigEndian (bytes.take 16), ofBigEndian (bytes.drop 16)⟩
  size_pos := by decide
  encode_length _ := by simp

/-! ## Blobs -/

/-- `domain.Mmap`. -/
structure Succinct where
  leaves : List (BitVec 64)
  labelBitmap : List (BitVec 64)
  labels : Bytes
  ranks : List (BitVec 32)
  selects : List (BitVec 32)
  deriving DecidableEq, Repr

/-- `mmapBlob`. -/
inductive Blob where
  | succinct (matcher : Succinct)
  | ipSet (set : IPSet)
  deriving DecidableEq, Repr

def mmapBlobSuccinct : Nat := 1
def mmapBlobIPSet : Nat := 2

def Blob.kind : Blob → Nat
  | .succinct _ => mmapBlobSuccinct
  | .ipSet _ => mmapBlobIPSet

def Blob.size : Blob → Nat
  | .succinct matcher => 40 + matcher.leaves.length * 8 + matcher.labelBitmap.length * 8 +
    alignMmapOffset matcher.labels.length + alignMmapOffset (matcher.ranks.length * 4) +
    alignMmapOffset (matcher.selects.length * 4)
  | .ipSet set => 16 + set.ranges4.length * 8 + set.ranges6.length * 32

def writeMmapUint64 (values : List Nat) : Bytes := values.flatMap (order.put 8)

def Blob.write : Blob → Bytes
  | .succinct matcher =>
    writeMmapUint64 order [matcher.leaves.length, matcher.labelBitmap.length,
      matcher.labels.length, matcher.ranks.length, matcher.selects.length] ++
    (writeMmapArray (uint64Cell order) matcher.leaves ++
    (writeMmapArray (uint64Cell order) matcher.labelBitmap ++
    (writeMmapArray byteCell matcher.labels ++
    (writeMmapArray (int32Cell order) matcher.ranks ++
    writeMmapArray (int32Cell order) matcher.selects))))
  | .ipSet set =>
    writeMmapUint64 order [set.ranges4.length, set.ranges6.length] ++
    (writeMmapArray (range4Cell order) set.ranges4 ++ writeMmapArray range6Cell set.ranges6)

/-! ## Writing -/

/-- What the format takes from the matchers of the sing library: their arrays, from which
they can be made again. -/
structure MmapLibraries (μ ν : Type) extends Libraries μ ν where
  matcherMmap : μ → Succinct
  newMatcherFromMmap : Succinct → Except String μ
  newMatcherFromMmap_mmap : ∀ matcher, newMatcherFromMmap (matcherMmap matcher) = .ok matcher
  adGuardMmap : ν → Succinct
  newAdGuardMatcherFromMmap : Succinct → Except String ν
  newAdGuardMatcherFromMmap_mmap :
    ∀ matcher, newAdGuardMatcherFromMmap (adGuardMmap matcher) = .ok matcher

/-- `mmapWriter`: the blob is kept, and its number written. -/
def keepBlob (blob : Blob) (blobs : List Blob) : Bytes × List Blob :=
  (writeUvarint blobs.length, blobs ++ [blob])

variable {μ ν : Type} (libraries : MmapLibraries μ ν)

def mmapEncoder : Encoder μ ν (List Blob) where
  compiled := true
  matcher matcher := keepBlob (.succinct (libraries.matcherMmap matcher))
  ipSet set := keepBlob (.ipSet set)
  adGuard matcher := keepBlob (.succinct (libraries.adGuardMmap matcher))

def mmapMagic : Bytes := [0x53, 0x52, 0x53, 0x4d]
def mmapFormatVersion : Nat := 1
def mmapHeaderSize : Nat := 40
def mmapBlobEntrySize : Nat := 24

/-- The table of the blobs, from the offset of the first one. -/
def writeBlobTable (blobOffset : Nat) : List Blob → Bytes
  | [] => []
  | blob :: rest =>
    writeMmapUint64 order [blob.kind, blobOffset, blob.size] ++
      writeBlobTable (blobOffset + blob.size) rest

/-- The file around the rules and the blobs. -/
def mmapImage (version : Byte) (rules : Bytes) (blobs : List Blob) : Bytes :=
  let rulesEnd := mmapHeaderSize + rules.length
  let blobTableOffset := alignMmapOffset rulesEnd
  (mmapMagic ++ (order.put 4 mmapFormatVersion ++
    writeMmapUint64 order [version.toNat, rules.length, blobTableOffset, blobs.length])) ++
  (rules ++ (List.replicate (blobTableOffset - rulesEnd) 0 ++
  (writeBlobTable order (blobTableOffset + blobs.length * mmapBlobEntrySize) blobs ++
  blobs.flatMap (Blob.write order))))

def writeMmap (ruleSet : PlainRuleSetCompat μ ν) : Except String Bytes := do
  let (body, blobs) ← joinParts (writeRules libraries.toLibraries (mmapEncoder libraries)
    ruleSet.version ruleSet.rules) []
  pure (mmapImage order ruleSet.version (writeUvarint ruleSet.rules.length ++ body) blobs)

/-! ## Reading -/

def mmapSection (data : Bytes) (offset length : Nat) : Except Failure Bytes :=
  if offset % 8 ≠ 0 ∨ offset > data.length ∨ length > data.length - offset then
    .error "rule-set mmap section out of bounds"
  else .ok (Segment.slice ⟨offset, length⟩ data)

/-- A number that is taken from its place in the bytes. -/
def uint64At (offset : Nat) (data : Bytes) : Nat := order.get (Segment.slice ⟨offset, 8⟩ data)

/-- `mmapReader`. -/
structure MmapReader where
  data : Bytes
  blobTable : Bytes
  blobCount : Nat

namespace MmapReader
variable (reader : MmapReader)

/-- The blob with a number. The products wrap, so that a count whose table would not fit in
64 bits leaves a table that is too short, and a slice of it that panics. -/
def blobAt (index kind : Nat) : Except Failure Bytes :=
  if index ≥ reader.blobCount then .error "rule-set mmap blob index out of range"
  else
    let entry := reader.blobTable.drop (index * mmapBlobEntrySize % 2 ^ 64)
    if entry.length < 8 then .error .panic
    else if uint64At order 0 entry ≠ kind then .error "rule-set mmap blob kind mismatch"
    else if entry.length < mmapBlobEntrySize then .error .panic
    else mmapSection reader.data (uint64At order 8 entry) (uint64At order 16 entry)

def blob (kind : Nat) : Reader Bytes := do
  let index ← readUvarint
  reader.blobAt order index kind

def readUint64 : Reader Nat := do
  let bytes ← readFull 8
  pure (order.get bytes)

def truncated {α : Type} (size : Nat) (parse : Reader α) : Reader α := fun blob =>
  if blob.length < size then .error "rule-set mmap blob truncated" else parse blob

/-- The arrays of a matcher, from the start of its blob. -/
def succinct : Reader Succinct :=
  truncated 40 do
    let leafCount ← readUint64 order
    let bitmapCount ← readUint64 order
    let labelCount ← readUint64 order
    let rankCount ← readUint64 order
    let selectCount ← readUint64 order
    let leaves ← mmapArray (uint64Cell order) leafCount
    let labelBitmap ← mmapArray (uint64Cell order) bitmapCount
    let labels ← mmapArray byteCell labelCount
    let ranks ← mmapArray (int32Cell order) rankCount
    let selects ← mmapArray (int32Cell order) selectCount
    pure ⟨leaves, labelBitmap, labels, ranks, selects⟩

def ipRanges : Reader (List Interval × List Interval) :=
  truncated 16 do
    let count4 ← readUint64 order
    let count6 ← readUint64 order
    let ranges4 ← mmapArray (range4Cell order) count4
    let ranges6 ← mmapArray range6Cell count6
    pure (ranges4, ranges6)

/-- What a blob holds; bytes behind it are not looked at. -/
def parsed {α : Type} (parse : Reader α) (blob : Bytes) : Except Failure α :=
  match parse blob with
  | .ok (value, _) => .ok value
  | .error err => .error err

def readSuccinctMmap : Reader Succinct := do
  let blob ← reader.blob order mmapBlobSuccinct
  parsed (succinct order) blob

def readMatcher : Reader μ := do
  let mmap ← reader.readSuccinctMmap order
  ofExcept (libraries.newMatcherFromMmap mmap)

def readAdGuardMatcher : Reader ν := do
  let mmap ← reader.readSuccinctMmap order
  ofExcept (libraries.newAdGuardMatcherFromMmap mmap)

def readIPSet : Reader IPSet := do
  let blob ← reader.blob order mmapBlobIPSet
  let ranges ← parsed (ipRanges order) blob
  ofExcept (fromRanges ranges.1 ranges.2)

def decoder : Decoder μ ν where
  matcher := reader.readMatcher order libraries
  ipSet := reader.readIPSet order
  adGuard := reader.readAdGuardMatcher order libraries

end MmapReader

def readMmap (data : Bytes) : Except Failure (PlainRuleSetCompat μ ν) :=
  if data.length < mmapHeaderSize then .error "truncated rule-set mmap"
  else if data.take 4 ≠ mmapMagic then .error "invalid rule-set mmap"
  else if order.get (Segment.slice ⟨4, 4⟩ data) ≠ mmapFormatVersion then
    .error "unsupported rule-set mmap version"
  else do
    let rulesLength := uint64At order 16 data
    let blobTableOffset := uint64At order 24 data
    let blobCount := uint64At order 32 data
    let rules ← mmapSection data mmapHeaderSize rulesLength
    let blobTable ← mmapSection data blobTableOffset (blobCount * mmapBlobEntrySize % 2 ^ 64)
    let reader : MmapReader := ⟨data, blobTable, blobCount⟩
    let (rules, _) ← readBody libraries.toLibraries (reader.decoder order libraries) false rules
    pure ⟨BitVec.ofNat 8 (uint64At order 8 data), rules⟩

end Cells
end AmneziaBox.Source.SRS
