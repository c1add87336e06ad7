import AmneziaBox.Library.Stream
import AmneziaBox.Source.Adapter.InboundContext

/-!
# UDP packets over TrustTunnel

Embeds the framing of `transport/trusttunnel/packet.go` and the addresses of
`protocol.go`. A packet is a header and a payload; the length at its front counts all
that follows it. Client frames carry an application name, server frames do not. A writer
is embedded by the writes it makes on the connection, in order.

Outside the model: `wrapError`, which changes an error only in its form, the flush after a
packet, and the wait for the HTTP response.
-/
namespace AmneziaBox.Source.TrustTunnel
open Library Adapter
open Library.Stream (Buffer)

def packetAddressPortLen : Nat := 16 + 2
def packetLengthLen : Nat := 4
def packetAppNameLengthLen : Nat := 1

def clientPacketHeaderBaseLen : Nat :=
  packetLengthLen + packetAddressPortLen + packetAddressPortLen + packetAppNameLengthLen

def serverPacketHeaderFixedLen : Nat :=
  packetLengthLen + packetAddressPortLen + packetAddressPortLen

/-! ## Addresses in sixteen bytes -/

def parse16BytesIP (buffer : Bytes) : Addr :=
  let isIPv4 := buffer.take 12 = List.replicate 12 0
  -- Special: check ::1
  let isIPv4 := isIPv4 ∧ ¬ buffer.drop 12 = [0, 0, 0, 1]
  if isIPv4 then .ipv4 (BitVec.ofNat 32 (ofBigEndian (buffer.drop 12)))
  else .ipv6 (BitVec.ofNat 128 (ofBigEndian buffer))

/-- `As4` panics on the zero address. -/
def buildPaddingIP : Addr → Except String Bytes
  | .ipv6 value => .ok (bigEndian 16 value.toNat)
  | .ipv4 value => .ok (List.replicate 12 0 ++ bigEndian 4 value.toNat)
  | .invalid => .error "As4 called on IP zero value"

/-! ## The two ways to write a header -/

/-- The header in the buffer's room if there is enough of it, else in a write of its own. -/
def writeFrame (headerLen : Nat) (header : Bytes) (buffer : Buffer) : List Bytes :=
  if headerLen ≤ buffer.start then [(buffer.extendHeader header).bytes]
  else [header, buffer.bytes]

theorem writeFrame_bytes (headerLen : Nat) (header : Bytes) (buffer : Buffer) :
    (writeFrame headerLen header buffer).flatten = header ++ buffer.bytes := by
  unfold writeFrame
  split
  · exact List.append_nil _
  · simp

/-- `ReadFullFrom` of a buffer with this much room left. -/
def readFullFrom (freeLen size : Nat) : Stream.Reader Bytes :=
  if freeLen < size then throw "short buffer" else Stream.readFull size

/-- The part of a body that a complete header holds; the reads cannot fail then. -/
def parseHeader {α : Type} (parser : Library.Reader α) (header : Bytes) : Stream.Reader α :=
  match parser header with
  | .ok (fields, _) => pure fields
  | .error _ => throw "unexpected EOF"

/-! ## Client to server -/

/-- Length, unknown source, destination and name. -/
def clientHeader (appName destinationAddress : Bytes) (port : BitVec 16) (payloadLen : Nat) : Bytes :=
  let lengthField := packetAddressPortLen + packetAddressPortLen + packetAppNameLengthLen +
    appName.length + payloadLen
  bigEndian 4 lengthField ++ (List.replicate (16 + 2) 0 ++ (destinationAddress ++
    (bigEndian 2 port.toNat ++ (bigEndian 1 appName.length ++ appName))))

/-- The address of the packet, looked up if it is a name. -/
def resolve (resolveFunc : Option (String → Except String Addr)) (source : Socksaddr) :
    Except String Addr :=
  if source.isIP then .ok source.addr
  else
    match resolveFunc with
    | none => .error "write to without resolveFunc"
    | some lookup => lookup source.fqdn

def writePacketToServer (resolveFunc : Option (String → Except String Addr)) (appName : Bytes)
    (buffer : Buffer) (source : Socksaddr) : Except String (List Bytes) := do
  let addr ← resolve resolveFunc source
  let headerLen := clientPacketHeaderBaseLen + appName.length
  let destinationAddress ← buildPaddingIP addr
  pure (writeFrame headerLen
    (clientHeader appName destinationAddress source.port buffer.bytes.length) buffer)

/-- Length, destination address and port, and length of the name. -/
def parseClientHeader : Library.Reader (Nat × Bytes × Nat × Nat) := do
  let length ← readBigEndian 4
  let _sourceAddressBuffer ← readFull 16
  let _sourcePort ← readBigEndian 2
  let destinationAddressBuffer ← readFull 16
  let port ← readBigEndian 2
  let appNameLen ← readBigEndian 1
  pure (length, destinationAddressBuffer, port, appNameLen)

def skipAppName (appNameLen : Nat) : Stream.Reader Unit :=
  if 0 < appNameLen then Stream.discard appNameLen else pure ()

def readPacketFromClient (freeLen : Nat) : Stream.Reader (Socksaddr × Bytes) := do
  let header ← Stream.readFull (4 + 16 + 2 + 16 + 2 + 1)
  let (length, destinationAddressBuffer, port, appNameLen) ← parseHeader parseClientHeader header
  skipAppName appNameLen
  if length < 16 + 2 + 16 + 2 + 1 + appNameLen then
    throw ("invalid udp length: " ++ toString length)
  else
    let payload ← readFullFrom freeLen (length - (16 + 2 + 16 + 2 + 1 + appNameLen))
    pure (⟨parse16BytesIP destinationAddressBuffer, BitVec.ofNat 16 port, ""⟩, payload)

/-! ## Server to client -/

/-- Length, source and unknown destination. -/
def serverHeader (sourceAddress : Bytes) (port : BitVec 16) (payloadLen : Nat) : Bytes :=
  let lengthField := packetAddressPortLen + packetAddressPortLen + payloadLen
  bigEndian 4 lengthField ++ (sourceAddress ++ (bigEndian 2 port.toNat ++
    (List.replicate 16 0 ++ bigEndian 2 0)))

def writePacketToClient (buffer : Buffer) (source : Socksaddr) : Except String (List Bytes) :=
  if source.isIP then do
    let headerLen := serverPacketHeaderFixedLen
    let sourceAddress ← buildPaddingIP source.addr
    pure (writeFrame headerLen (serverHeader sourceAddress source.port buffer.bytes.length) buffer)
  else .error "only support IP"

/-- Length, source address and port. -/
def parseServerHeader : Library.Reader (Nat × Bytes × Nat) := do
  let length ← readBigEndian 4
  let sourceAddressBuffer ← readFull 16
  let port ← readBigEndian 2
  let _local ← readFull (16 + 2)
  pure (length, sourceAddressBuffer, port)

def readPacketFromServer (freeLen : Nat) : Stream.Reader (Socksaddr × Bytes) := do
  let header ← Stream.readFull (4 + 16 + 2 + 16 + 2)
  let (length, sourceAddressBuffer, port) ← parseHeader parseServerHeader header
  if length < 16 + 2 + 16 + 2 then
    throw ("invalid udp length: " ++ toString length)
  else
    let payload ← readFullFrom freeLen (length - (16 + 2 + 16 + 2))
    pure (⟨parse16BytesIP sourceAddressBuffer, BitVec.ofNat 16 port, ""⟩, payload)

end AmneziaBox.Source.TrustTunnel
