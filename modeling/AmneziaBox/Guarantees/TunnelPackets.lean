import AmneziaBox.Source.TrustTunnel.Packet
import Mathlib.Tactic.FinCases

/-!
# TrustTunnel packets arrive as they were sent

What the client frames the server reads back, and the other way round: the address and
port that a packet is given with, and its payload, packet by packet and in order, however
the stream is cut. A packet holds one address only: the other end is unknown to the writer,
which leaves it zero, and dropped by the reader. Sixteen bytes keep an address unless it
is one of those that the two families share there.
-/
namespace AmneziaBox.Guarantees.TunnelPackets
open Library Source Source.TrustTunnel Stream Takes List
open Adapter
open Library.Stream (Buffer Leads Takes)

/-! ## Addresses -/

/-- An IPv4 address other than 0.0.0.1, or an IPv6 address that is ::1 or outside ::/96. -/
def Distinct : Addr → Prop
  | .invalid => False
  | .ipv4 value => value.toNat ≠ 1
  | .ipv6 value => value.toNat = 1 ∨ 2 ^ 32 ≤ value.toNat

theorem bigEndian_injective {width x y : Nat} (xFits : x < 256 ^ width) (yFits : y < 256 ^ width)
    (same : bigEndian width x = bigEndian width y) : x = y := by
  have numbers := congrArg ofBigEndian same
  rwa [ofBigEndian_bigEndian, ofBigEndian_bigEndian, Nat.mod_eq_of_lt xFits,
    Nat.mod_eq_of_lt yFits] at numbers

theorem parse16BytesIP_ipv4 {value : BitVec 32} (distinct : value.toNat ≠ 1) :
    parse16BytesIP (List.replicate 12 0 ++ bigEndian 4 value.toNat) = .ipv4 value := by
  have fits : value.toNat < 256 ^ 4 := value.isLt
  have other : ¬ bigEndian 4 value.toNat = bigEndian 4 1 :=
    mt (bigEndian_injective fits (by decide)) distinct
  unfold parse16BytesIP
  rw [take_left' (length_replicate), drop_left' (length_replicate),
    if_pos ⟨rfl, other⟩, ofBigEndian_bigEndian, Nat.mod_eq_of_lt fits, BitVec.ofNat_toNat,
    BitVec.setWidth_eq]

theorem parse16BytesIP_ipv6 {value : BitVec 128}
    (distinct : value.toNat = 1 ∨ 2 ^ 32 ≤ value.toNat) :
    parse16BytesIP (bigEndian 16 value.toNat) = .ipv6 value := by
  have fits : value.toNat < 256 ^ 16 := value.isLt
  have halves : bigEndian 16 value.toNat =
      bigEndian 12 (value.toNat / 256 ^ 4) ++ bigEndian 4 value.toNat := bigEndian_append 12 4 _
  have notIPv4 : ¬ (bigEndian 12 (value.toNat / 256 ^ 4) = replicate 12 0 ∧
      ¬ bigEndian 4 value.toNat = [0, 0, 0, 1]) := by
    rintro ⟨zero, other⟩
    rcases distinct with one | large
    · rw [one] at other
      exact other rfl
    · have none : value.toNat / 256 ^ 4 = 0 :=
        bigEndian_injective (Nat.div_lt_of_lt_mul fits) (by decide) zero
      have small := (Nat.div_eq_zero_iff.mp none).resolve_left (by decide)
      omega
  have first : (bigEndian 16 value.toNat).take 12 = bigEndian 12 (value.toNat / 256 ^ 4) := by
    rw [halves, take_left' (bigEndian_length _ _)]
  have second : (bigEndian 16 value.toNat).drop 12 = bigEndian 4 value.toNat := by
    rw [halves, drop_left' (bigEndian_length _ _)]
  unfold parse16BytesIP
  rw [first, second, if_neg notIPv4, ofBigEndian_bigEndian, Nat.mod_eq_of_lt fits,
    BitVec.ofNat_toNat, BitVec.setWidth_eq]

theorem buildPaddingIP_distinct {address : Addr} (distinct : Distinct address) :
    ∃ bytes, buildPaddingIP address = .ok bytes ∧ bytes.length = 16 ∧
      parse16BytesIP bytes = address := by
  cases address with
  | invalid => exact distinct.elim
  | ipv4 value =>
    refine ⟨_, rfl, ?_, parse16BytesIP_ipv4 distinct⟩
    rw [length_append, length_replicate, bigEndian_length]
  | ipv6 value => exact ⟨_, rfl, bigEndian_length _ _, parse16BytesIP_ipv6 distinct⟩

/-! ## Frames -/

theorem takes_parseHeader {α : Type} {parser : Library.Reader α} {header : Bytes} {fields : α}
    (reads : Reads parser header fields) : Takes (parseHeader parser header) [] fields := by
  have parsed := reads []
  rw [append_nil] at parsed
  unfold parseHeader
  rw [parsed]
  exact Leads.refl _

variable {freeLen : Nat}

theorem takes_fullFrom {payload : Bytes} (fits : payload.length ≤ freeLen) :
    Takes (readFullFrom freeLen payload.length) payload payload := by
  unfold readFullFrom
  rw [if_neg (Nat.not_lt.mpr fits)]
  exact takes_full payload

section Frames

variable {address payload : Bytes} {port : BitVec 16}

/-- The part of a client header before the name, which the server reads in one piece. -/
def clientFront (appName address : Bytes) (port : BitVec 16) (payloadLen : Nat) : Bytes :=
  bigEndian 4 (37 + appName.length + payloadLen) ++ (List.replicate 16 0 ++ (bigEndian 2 0 ++
    (address ++ (bigEndian 2 port.toNat ++ bigEndian 1 appName.length))))

theorem clientHeader_eq (appName address : Bytes) (port : BitVec 16) (payloadLen : Nat) :
    clientHeader appName address port payloadLen =
      clientFront appName address port payloadLen ++ appName := by
  unfold clientHeader clientFront
  simp only [append_assoc]
  rfl

variable {appName : Bytes}

theorem reads_clientFront (named : appName.length ≤ 255) (sixteen : address.length = 16)
    {payloadLen : Nat} (counted : 37 + appName.length + payloadLen < 2 ^ 32) :
    Reads parseClientHeader (clientFront appName address port payloadLen)
      (37 + appName.length + payloadLen, address, port.toNat, appName.length) := by
  have zeros : Reads (readFull 16) (replicate 16 0) (replicate 16 0) :=
    reads_full_of_length length_replicate
  have whole := reads_full_of_length sixteen
  have noPort : Reads (readBigEndian 2) (bigEndian 2 0) 0 := reads_bigEndian (by decide)
  refine (reads_bigEndian counted).bind (zeros.bind (noPort.bind (whole.bind ?_)))
  refine (reads_bigEndian port.isLt).bind ?_
  exact (reads_bigEndian (show appName.length < 256 ^ 1 by omega)).map fun appNameLen =>
    (37 + appName.length + payloadLen, address, port.toNat, appNameLen)

theorem clientFront_length (sixteen : address.length = 16) (payloadLen : Nat) :
    (clientFront appName address port payloadLen).length = 4 + 16 + 2 + 16 + 2 + 1 := by
  simp [clientFront, sixteen]

theorem takes_name (appName : Bytes) : Takes (skipAppName appName.length) appName () := by
  unfold skipAppName
  split
  · exact takes_discard appName
  · rename_i empty
    obtain rfl := length_eq_zero_iff.mp (Nat.eq_zero_of_not_pos empty)
    exact Leads.refl _

theorem takes_clientFrame (named : appName.length ≤ 255) (sixteen : address.length = 16)
    (counted : 37 + appName.length + payload.length < 2 ^ 32) (fits : payload.length ≤ freeLen) :
    Takes (readPacketFromClient freeLen)
      (clientHeader appName address port payload.length ++ payload)
      (⟨parse16BytesIP address, port, ""⟩, payload) := by
  have front := takes_full (clientFront appName address port payload.length)
  rw [clientFront_length sixteen] at front
  have rest : 37 + appName.length + payload.length - (37 + appName.length) = payload.length := by
    omega
  rw [clientHeader_eq, append_assoc]
  refine bind front ?_
  refine after_nil (takes_parseHeader (reads_clientFront named sixteen counted)) ?_
  refine bind (takes_name appName) ?_
  rw [if_neg (by omega)]
  rw [rest, BitVec.ofNat_toNat, BitVec.setWidth_eq]
  exact map (fun read => ((⟨parse16BytesIP address, port, ""⟩ : Socksaddr), read))
    (takes_fullFrom fits)

theorem reads_serverHeader (sixteen : address.length = 16) {payloadLen : Nat}
    (counted : 36 + payloadLen < 2 ^ 32) :
    Reads parseServerHeader (serverHeader address port payloadLen)
      (36 + payloadLen, address, port.toNat) := by
  have whole := reads_full_of_length sixteen
  have zeros : Reads (readFull (16 + 2)) (replicate 16 0 ++ bigEndian 2 0)
      (replicate 16 0 ++ bigEndian 2 0) := reads_full_of_length (by simp)
  refine (reads_bigEndian counted).bind (whole.bind ((reads_bigEndian port.isLt).bind ?_))
  exact zeros.map fun _ => (36 + payloadLen, address, port.toNat)

theorem serverHeader_length (sixteen : address.length = 16) (payloadLen : Nat) :
    (serverHeader address port payloadLen).length = 4 + 16 + 2 + 16 + 2 := by
  simp [serverHeader, sixteen]

theorem takes_serverFrame (sixteen : address.length = 16)
    (counted : 36 + payload.length < 2 ^ 32) (fits : payload.length ≤ freeLen) :
    Takes (readPacketFromServer freeLen) (serverHeader address port payload.length ++ payload)
      (⟨parse16BytesIP address, port, ""⟩, payload) := by
  have front := takes_full (serverHeader address port payload.length)
  rw [serverHeader_length sixteen] at front
  have rest : 36 + payload.length - 36 = payload.length := by omega
  refine bind front ?_
  refine after_nil (takes_parseHeader (reads_serverHeader sixteen counted)) ?_
  change Takes (if 36 + payload.length < 36 then _ else _) _ _
  rw [if_neg (by omega)]
  rw [rest, BitVec.ofNat_toNat, BitVec.setWidth_eq]
  exact map (fun read => ((⟨parse16BytesIP address, port, ""⟩ : Socksaddr), read))
    (takes_fullFrom fits)

end Frames

/-! ## Whole streams -/

/-- A packet with its address, in a buffer that may have room for a header. -/
structure Packet where
  address : Addr
  port : BitVec 16
  buffer : Buffer
  deriving DecidableEq, Repr

def Packet.socksaddr (packet : Packet) : Socksaddr := ⟨packet.address, packet.port, ""⟩

/-- What a reader of the packet is to give. -/
def Packet.received (packet : Packet) : Socksaddr × Bytes := (packet.socksaddr, packet.buffer.bytes)

/-- The address survives and the payload fits the reader's buffer. The 32 bits of the length
field count any UDP payload, whose own length has 16. -/
structure Packet.Carried (freeLen : Nat) (packet : Packet) : Prop where
  distinct : Distinct packet.address
  fits : packet.buffer.bytes.length ≤ freeLen
  counted : 37 + 255 + packet.buffer.bytes.length < 2 ^ 32

variable {packet : Packet}

theorem isIP_of_distinct (distinct : Distinct packet.address) : packet.socksaddr.isIP = true := by
  unfold Packet.socksaddr Socksaddr.isIP
  cases h : packet.address with
  | invalid =>
    rw [h] at distinct
    exact distinct.elim
  | ipv4 | ipv6 => rfl

/-- A writer and a reader of frames agree on a packet. -/
structure Agrees (write : Buffer → Socksaddr → Except String (List Bytes))
    (reader : Stream.Reader (Socksaddr × Bytes)) (packet : Packet) (writes : List Bytes) : Prop where
  written : write packet.buffer packet.socksaddr = .ok writes
  takes : Takes reader writes.flatten packet.received

theorem client_agrees {appName : Bytes} (named : appName.length ≤ 255)
    (resolveFunc : Option (String → Except String Addr)) (carried : packet.Carried freeLen) :
    ∃ writes, Agrees (writePacketToServer resolveFunc appName) (readPacketFromClient freeLen) packet
      writes := by
  obtain ⟨bytes, built, sixteen, same⟩ := buildPaddingIP_distinct carried.distinct
  have counted : 37 + appName.length + packet.buffer.bytes.length < 2 ^ 32 := by
    have bound := carried.counted
    omega
  refine ⟨writeFrame (clientPacketHeaderBaseLen + appName.length)
    (clientHeader appName bytes packet.port packet.buffer.bytes.length) packet.buffer, ?_, ?_⟩
  · unfold writePacketToServer resolve
    rw [if_pos (isIP_of_distinct carried.distinct)]
    change (buildPaddingIP packet.address >>= _) = _
    rw [built]
    rfl
  · rw [writeFrame_bytes, Packet.received, Packet.socksaddr, ← same]
    exact takes_clientFrame named sixteen counted carried.fits

theorem server_agrees (carried : packet.Carried freeLen) :
    ∃ writes, Agrees writePacketToClient (readPacketFromServer freeLen) packet writes := by
  obtain ⟨bytes, built, sixteen, same⟩ := buildPaddingIP_distinct carried.distinct
  have counted : 36 + packet.buffer.bytes.length < 2 ^ 32 := by
    have bound := carried.counted
    omega
  refine ⟨writeFrame serverPacketHeaderFixedLen
    (serverHeader bytes packet.port packet.buffer.bytes.length) packet.buffer, ?_, ?_⟩
  · unfold writePacketToClient
    rw [if_pos (isIP_of_distinct carried.distinct)]
    change (buildPaddingIP packet.address >>= _) = _
    rw [built]
    rfl
  · rw [writeFrame_bytes, Packet.received, Packet.socksaddr, ← same]
    exact takes_serverFrame sixteen counted carried.fits

/-- What a writer puts on the connection for a sequence of packets. -/
def send (write : Buffer → Socksaddr → Except String (List Bytes)) (packets : List Packet) :
    Except String Bytes := do
  let writes ← packets.mapM fun packet => write packet.buffer packet.socksaddr
  pure writes.flatten.flatten

theorem send_cons {write : Buffer → Socksaddr → Except String (List Bytes)} {rest : List Packet}
    {writes : List Bytes} {stream : Bytes}
    (written : write packet.buffer packet.socksaddr = .ok writes)
    (sent : send write rest = .ok stream) :
    send write (packet :: rest) = .ok (writes.flatten ++ stream) := by
  unfold send at sent ⊢
  rw [mapM_cons, written]
  cases others : rest.mapM fun packet => write packet.buffer packet.socksaddr with
  | error err =>
    rw [others] at sent
    cases sent
  | ok more =>
    rw [others] at sent
    cases sent
    exact congrArg Except.ok (by simp)

theorem stream_delivered {write : Buffer → Socksaddr → Except String (List Bytes)}
    {reader : Stream.Reader (Socksaddr × Bytes)} {packets : List Packet}
    (agrees : ∀ packet ∈ packets, ∃ writes, Agrees write reader packet writes) :
    ∃ stream, send write packets = .ok stream ∧
      Takes (readTimes packets.length reader) stream (packets.map Packet.received) := by
  induction packets with
  | nil => exact ⟨[], rfl, Leads.refl _⟩
  | cons packet rest ih =>
    obtain ⟨⟨writes, agreed⟩, others⟩ := forall_mem_cons.mp agrees
    obtain ⟨stream, sent, takes⟩ := ih others
    refine ⟨writes.flatten ++ stream, send_cons agreed.written sent, ?_⟩
    exact bind agreed.takes (map (cons packet.received) takes)

/-- Both paths emit the same bytes. -/
theorem client_headroom (resolveFunc : Option (String → Except String Addr))
    (appName payload : Bytes) (source : Socksaddr) (start start' : Nat) :
    (writePacketToServer resolveFunc appName ⟨start, payload⟩ source).map List.flatten =
      (writePacketToServer resolveFunc appName ⟨start', payload⟩ source).map List.flatten := by
  unfold writePacketToServer
  cases resolve resolveFunc source with
  | error err => rfl
  | ok address =>
    change ((buildPaddingIP address >>= _).map _) = ((buildPaddingIP address >>= _).map _)
    cases buildPaddingIP address with
    | error err => rfl
    | ok bytes =>
      refine congrArg Except.ok ?_
      rw [writeFrame_bytes, writeFrame_bytes]

theorem server_headroom (payload : Bytes) (source : Socksaddr) (start start' : Nat) :
    (writePacketToClient ⟨start, payload⟩ source).map List.flatten =
      (writePacketToClient ⟨start', payload⟩ source).map List.flatten := by
  unfold writePacketToClient
  split
  · cases buildPaddingIP source.addr with
    | error err => rfl
    | ok bytes =>
      refine congrArg Except.ok ?_
      rw [writeFrame_bytes, writeFrame_bytes]
  · rfl

/-- In both directions every sequence of packets is sent, and reading the stream in whatever
pieces it arrives gives the address, port and payload of each packet in order. The bytes do
not depend on the room in the packets' buffers. -/
theorem packets_delivered (resolveFunc : Option (String → Except String Addr)) (appName : Bytes)
    (named : appName.length ≤ 255) (freeLen : Nat) (packets : List Packet)
    (carried : ∀ packet ∈ packets, packet.Carried freeLen) :
    (∃ stream, send (writePacketToServer resolveFunc appName) packets = .ok stream ∧
      Takes (readTimes packets.length (readPacketFromClient freeLen)) stream
        (packets.map Packet.received)) ∧
    (∃ stream, send writePacketToClient packets = .ok stream ∧
      Takes (readTimes packets.length (readPacketFromServer freeLen)) stream
        (packets.map Packet.received)) ∧
    ∀ (payload : Bytes) (source : Socksaddr) (start start' : Nat),
      (writePacketToServer resolveFunc appName ⟨start, payload⟩ source).map List.flatten =
        (writePacketToServer resolveFunc appName ⟨start', payload⟩ source).map List.flatten ∧
      (writePacketToClient ⟨start, payload⟩ source).map List.flatten =
        (writePacketToClient ⟨start', payload⟩ source).map List.flatten := by
  refine ⟨stream_delivered fun packet member => ?_, stream_delivered fun packet member => ?_, ?_⟩
  · exact client_agrees named resolveFunc (carried packet member)
  · exact server_agrees (carried packet member)
  · intro payload source start start'
    exact ⟨client_headroom resolveFunc appName payload source start start',
      server_headroom payload source start start'⟩

/-- A packet to ::1 with room for a header and an empty one to 0.0.0.2 without. -/
def sample : List Packet :=
  [⟨.ipv6 1, 53, ⟨64, [1, 2]⟩⟩, ⟨.ipv4 2, 443, ⟨0, []⟩⟩]

theorem packets_delivered_sample :
    (∃ stream, send (writePacketToServer none [65]) sample = .ok stream ∧
      Takes (readTimes 2 (readPacketFromClient 2)) stream (sample.map Packet.received)) ∧
    ∃ stream, send writePacketToClient sample = .ok stream ∧
      Takes (readTimes 2 (readPacketFromServer 2)) stream (sample.map Packet.received) := by
  have carried : ∀ packet ∈ sample, packet.Carried 2 := by
    intro packet member
    fin_cases member
    · exact ⟨Or.inl rfl, by decide, by decide⟩
    · exact ⟨show (2 : BitVec 32).toNat ≠ 1 by decide, by decide, by decide⟩
  have delivered := packets_delivered none [65] (by decide) 2 sample carried
  exact ⟨delivered.1, delivered.2.1⟩

end AmneziaBox.Guarantees.TunnelPackets
