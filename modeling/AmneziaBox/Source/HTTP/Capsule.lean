import AmneziaBox.Library.Stream

/-!
# HTTP datagram capsules

Embeds `transport/http/capsule.go`: the variable-length integers of RFC 9000, the loop
that reads the next packet from a capsule stream, and the functions that wrap packets. A
capsule is a type, a length and a body; a datagram capsule's body starts with a context id.

Outside the model: the connections around the stream.
-/
namespace AmneziaBox.Source.HTTP
open Library
open Library.Stream (Buffer)

def capsuleTypeDatagram : Nat := 0
def maxCapsuleLength : Nat := 1 <<< 20

/-! ## Variable-length integers -/

/-- The next byte of a value. A value has at most eight bytes with two bits taken by the
length, so the shift loses nothing. -/
def pushByte (value : Nat) (next : Byte) : Nat := value <<< 8 ||| next.toNat

def varintLength (first : Byte) : Nat := 1 <<< (first >>> 6).toNat

def readVarintMore : Nat → Nat → Stream.Reader Nat
  | 0, value => pure value
  | more + 1, value => do
    let next ← Stream.readByte
    readVarintMore more (pushByte value next)

/-- The value and the number of bytes it took. -/
def readVarint : Stream.Reader (Nat × Nat) := do
  let first ← Stream.readByte
  let value ← readVarintMore (varintLength first - 1) (first &&& 0x3f).toNat
  pure (value, varintLength first)

def decodeVarint : Bytes → Option (Nat × Nat)
  | [] => none
  | first :: rest =>
    if (first :: rest).length < varintLength first then none
    else
      some ((rest.take (varintLength first - 1)).foldl pushByte (first &&& 0x3f).toNat,
        varintLength first)

def varintLen (value : Nat) : Nat :=
  if value < 1 <<< 6 then 1
  else if value < 1 <<< 14 then 2
  else if value < 1 <<< 30 then 4
  else 8

/-- What `PutVarint` writes of an `uint64`. -/
def putVarint (value : Nat) : Bytes :=
  match varintLen value with
  | 1 => [BitVec.ofNat 8 value]
  | 2 => bigEndian 2 (value % 2 ^ 16 ||| 0x4000)
  | 4 => bigEndian 4 (value % 2 ^ 32 ||| 0x80000000)
  | _ => bigEndian 8 (value ||| 0xC000000000000000)

/-! ## Capsules -/

section Round

variable (freeLen : Nat) (again : Stream.Reader Bytes)

/-- The rest of a datagram capsule of this length, after its context id. `again` is the
next round of the loop. -/
def readDatagram (length contextID contextLength : Nat) : Stream.Reader Bytes :=
  if length < contextLength then
    throw "malformed datagram capsule"
  else if contextID ≠ 0 ∨ freeLen < length - contextLength then do
    Stream.discard (length - contextLength)
    again
  else
    Stream.readFull (length - contextLength)

/-- The rest of a capsule after its type and length. -/
def readCapsuleBody (capsuleType length : Nat) : Stream.Reader Bytes :=
  if maxCapsuleLength < length then
    throw ("capsule too large: " ++ toString length)
  else if capsuleType ≠ capsuleTypeDatagram then do
    Stream.discard length
    again
  else do
    let (contextID, contextLength) ← readVarint
    readDatagram freeLen again length contextID contextLength

end Round

/-- The loop of `readDatagramCapsule` with a bound on its rounds. Every round takes bytes
from the stream, so with more rounds than bytes the bound is never met. -/
def readDatagramCapsuleWithin (freeLen : Nat) : Nat → Stream.Reader Bytes
  | 0 => throw "EOF"
  | rounds + 1 => do
    let (capsuleType, _) ← readVarint
    let (length, _) ← readVarint
    readCapsuleBody freeLen (readDatagramCapsuleWithin freeLen rounds) capsuleType length

/-- The bytes put into a buffer with this much room left. -/
def readDatagramCapsule (freeLen : Nat) : Stream.Reader Bytes := fun pieces =>
  readDatagramCapsuleWithin freeLen (pieces.flatten.length + 1) pieces

def prependContextID (buffer : Buffer) : Buffer :=
  if 1 ≤ buffer.start then buffer.extendHeader [0]
  else Buffer.ofBytes (0 :: buffer.bytes)

/-- The bytes given to the writer. -/
def writeDatagramCapsule (datagram : Buffer) : Bytes :=
  let length := datagram.bytes.length
  let headerLength := 1 + varintLen length
  let header : Bytes := BitVec.ofNat 8 capsuleTypeDatagram :: putVarint length
  if headerLength ≤ datagram.start then (datagram.extendHeader header).bytes
  else (Buffer.ofBytes (header ++ datagram.bytes)).bytes

/-! ## Several capsules in one write -/

/-- The length of a datagram with its header. -/
def capsuleLength (datagram : Buffer) : Nat :=
  1 + varintLen datagram.bytes.length + datagram.bytes.length

/-- A capsule at the end of a buffer. `Extend` panics without room for the header; `Write`
copies what has room, and `Must1` panics if nothing has. -/
def extendCapsules (capacity : Nat) (capsules : Bytes) (datagram : Buffer) : Option Bytes :=
  let length := datagram.bytes.length
  let headerLength := 1 + varintLen length
  let free := capacity - capsules.length
  if free < headerLength ∨ (free = headerLength ∧ 0 < length) then none
  else
    let header : Bytes := BitVec.ofNat 8 capsuleTypeDatagram :: putVarint length
    some (capsules ++ (header ++ datagram.bytes.take (free - headerLength)))

/-- The loop of `WriteDatagramCapsules` from what the buffer holds: the bytes of each write. -/
def writeBatches (capacity : Nat) : Bytes → List Buffer → Option (List Bytes)
  | capsules, [] => some [capsules]
  | capsules, datagram :: rest => do
    if capsuleLength datagram > capacity - capsules.length then
      let filled ← extendCapsules capacity [] datagram
      let writes ← writeBatches capacity filled rest
      some (capsules :: writes)
    else
      let filled ← extendCapsules capacity capsules datagram
      writeBatches capacity filled rest

def totalLength : List Buffer → Nat
  | [] => 0
  | datagram :: rest => capsuleLength datagram + totalLength rest

/-- `WriteDatagramCapsules` to a writer that takes everything; `none` is a panic. -/
def writeDatagramCapsules (maxPooledBufferSize : Nat) : List Buffer → Option (List Bytes)
  | [datagram] => some [writeDatagramCapsule datagram]
  | datagrams => writeBatches (min (totalLength datagrams) maxPooledBufferSize) [] datagrams

end AmneziaBox.Source.HTTP
