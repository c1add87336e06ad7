import AmneziaBox.Source.TrustTunnel.Packet

/-!
# Trojan

`transport/trojan/protocol.go`, the packets of a client, and `service.go`, the request that a
server reads and its users. Addresses are left to `M.SocksaddrSerializer`, which is not part
of the repository. A writer is embedded by the writes it makes on the connection, in order.
-/
namespace AmneziaBox.Source.Trojan
open Library TrustTunnel
open Library.Stream (Buffer)

/-- What is asked of `M.SocksaddrSerializer`: it reads back what it writes. `AddrPortLen` is the
length of that. -/
structure Serializer (α : Type) where
  /-- Nothing for a destination that cannot be written. -/
  writeAddrPort : α → Option Bytes
  readAddrPort : Stream.Reader α
  takes : ∀ {destination address}, writeAddrPort destination = some address →
    Stream.Takes readAddrPort address destination

/-- It documents the first byte of an address: 1 for IPv4, 3 for a domain and 4 for IPv6. -/
def Serializer.Tagged {α : Type} (serializer : Serializer α) : Prop :=
  ∀ destination address, serializer.writeAddrPort destination = some address →
    address.head? = some 1 ∨ address.head? = some 3 ∨ address.head? = some 4

def keyLength : Nat := 56
def commandTCP : Byte := 1
def commandUDP : Byte := 3
def commandMux : Byte := 0x7f
def crlf : Bytes := [13, 10]

def hexDigit (value : Nat) : Byte := BitVec.ofNat 8 (if value < 10 then 48 + value else 87 + value)

/-- `Key` of a password with this SHA-224 digest. -/
def Key (digest : Bytes) : Bytes :=
  digest.flatMap fun byte => [hexDigit (byte.toNat / 16), hexDigit (byte.toNat % 16)]

variable {α υ : Type} (serializer : Serializer α)

/-! ## Packets -/

def packetHeader (address : Bytes) (size : Nat) : Bytes := address ++ (bigEndian 2 size ++ crlf)

/-- A packet to be written; a UDP packet has fewer than 65536 bytes. -/
structure Call (α : Type) where
  destination : α
  buffer : Buffer
  sized : buffer.bytes.length < 2 ^ 16
  /-- The connection takes what is written to it. -/
  accepts : Bool := true

/-- The writes of `ClientHandshakePacket`, none for a call that fails. -/
def clientHandshakePacket (key : Bytes) (call : Call α) : List Bytes :=
  match serializer.writeAddrPort call.destination with
  | some address =>
    if call.accepts then
      writeFrame (keyLength + 2 * address.length + 9)
        (key ++ (crlf ++ ([commandUDP] ++ (address ++ (crlf ++
          packetHeader address call.buffer.bytes.length))))) call.buffer
    else []
  | none => []

/-- The write of `WritePacket`. There is none, too, for a buffer without room for the header,
where `ExtendHeader` panics. -/
def writePacket (call : Call α) : List Bytes :=
  match serializer.writeAddrPort call.destination with
  | some address =>
    if address.length + 4 ≤ call.buffer.start ∧ call.accepts then
      [(call.buffer.extendHeader (packetHeader address call.buffer.bytes.length)).bytes]
    else []
  | none => []

structure ClientPacketConn where
  headerWritten : Bool := false
  /-- The writes on the connection. -/
  sent : List Bytes := []

/-- `ClientPacketConn.WritePacket`, for calls that follow each other. -/
def ClientPacketConn.writePacket (key : Bytes) (conn : ClientPacketConn) (call : Call α) :
    ClientPacketConn where
  headerWritten := true
  sent := conn.sent ++
    if conn.headerWritten then Trojan.writePacket serializer call
    else clientHandshakePacket serializer key call

/-! ## Requests -/

/-- The users of a `Service` and their keys. -/
structure Service (υ κ : Type) where
  users : υ → Option κ := fun _ => none
  keys : κ → Option υ := fun _ => none

/-- `E.Cause`. -/
def cause (text : String) (reader : Stream.Reader α) : Stream.Reader α := fun pieces =>
  (reader pieces).mapError fun err => text ++ ": " ++ err

/-- What `NewConnection` reads behind the key. -/
def readRequest : Stream.Reader (Byte × α) := do
  cause "skip crlf" (Stream.discard 2)
  let command ← cause "read command" Stream.readByte
  if command = commandTCP ∨ command = commandUDP ∨ command = commandMux then
    let destination ← cause "read destination" serializer.readAddrPort
    cause "skip crlf" (Stream.discard 2)
    pure (command, destination)
  else throw ("unknown command " ++ toString command.toNat)

/-- The command says which of the handlers gets the connection. -/
inductive Outcome (α υ : Type) where
  | handler (user : υ) (command : Byte) (destination : α) (conn : List Bytes)
  | fallback (header : Bytes) (conn : List Bytes)
  | failed (err : String)

/-- `fallback`, with a handler for it or without. -/
def fallback (hasHandler : Bool) (conn : List Bytes) (header : Bytes) (err : String) :
    Outcome α υ :=
  if hasHandler then .fallback header conn else .failed (err ++ ": fallback disabled")

def newConnection (service : Service υ Bytes) (hasHandler : Bool) (conn : List Bytes) :
    Outcome α υ :=
  match Stream.readOnce keyLength conn with
  | none => .failed "EOF"
  | some (key, conn) =>
    if key.length ≠ keyLength then fallback hasHandler conn key "bad request size"
    else
      match service.keys key with
      | none => fallback hasHandler conn key "bad request"
      | some user =>
        match readRequest serializer conn with
        | .error err => .failed err
        | .ok ((command, destination), conn) => .handler user command destination conn

end AmneziaBox.Source.Trojan
