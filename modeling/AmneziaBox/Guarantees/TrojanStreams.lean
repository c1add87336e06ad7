import AmneziaBox.Source.Trojan.Protocol

/-!
# Trojan streams

A packet connection writes the handshake with its first packet and takes it for written even
if that packet could not be: the packets behind it then go out alone, and the server takes
their first bytes for a key. A server reads the key with a single read, so that a key which
arrives in two pieces goes to the fallback.
-/
namespace AmneziaBox.Guarantees.TrojanStreams
open Library Source Source.Trojan Stream Takes List

variable {α υ : Type} {serializer : Serializer α}

/-! ## The handshake comes first -/

section Handshake
variable (serializer)

/-- An address, the length of a payload and the payload. -/
def IsFrame (bytes : Bytes) : Prop :=
  ∃ destination address payload, serializer.writeAddrPort destination = some address ∧
    payload.length < 2 ^ 16 ∧ bytes = packetHeader address payload.length ++ payload

/-- The key, the command and an address, and frames behind them. -/
def IsStream (key bytes : Bytes) : Prop :=
  ∃ (destination : α) (address : Bytes) (frames : List Bytes),
    serializer.writeAddrPort destination = some address ∧
    (∀ frame ∈ frames, IsFrame serializer frame) ∧
    bytes = key ++ (crlf ++ ([commandUDP] ++ (address ++ crlf))) ++ frames.flatten

/-- Nothing yet, or the beginning of a valid stream. -/
def InOrder (key wire : Bytes) : Prop :=
  wire = [] ∨ ∃ stream, IsStream serializer key stream ∧ wire <+: stream

/-- A first packet can be written: its destination is one for the serializer. -/
def Opens (call : Call α) : Prop :=
  (serializer.writeAddrPort call.destination).isSome ∧ call.accepts

/-- So can a later one, which needs room for its header. -/
def Follows (call : Call α) : Prop :=
  ∃ address ∈ serializer.writeAddrPort call.destination,
    address.length + 4 ≤ call.buffer.start ∧ call.accepts

end Handshake

theorem isFrame_of_written {call : Call α} {address : Bytes}
    (written : serializer.writeAddrPort call.destination = some address) :
    IsFrame serializer (packetHeader address call.buffer.bytes.length ++ call.buffer.bytes) :=
  ⟨call.destination, address, call.buffer.bytes, written, call.sized, rfl⟩

/-- A later packet is one frame, or it is not written. -/
theorem writePacket_frame (serializer : Serializer α) (call : Call α) :
    (∃ frame, writePacket serializer call = [frame] ∧ IsFrame serializer frame ∧
      Follows serializer call) ∨
    (writePacket serializer call = [] ∧ ¬ Follows serializer call) := by
  unfold writePacket Follows
  cases written : serializer.writeAddrPort call.destination with
  | none => simp
  | some address =>
    by_cases room : address.length + 4 ≤ call.buffer.start ∧ call.accepts = true
    · exact .inl ⟨_, if_pos room, isFrame_of_written written, address, rfl, room⟩
    · refine .inr ⟨if_neg room, ?_⟩
      rintro ⟨_, same, fits⟩
      cases same
      exact room fits

theorem clientHandshakePacket_stream (key : Bytes) {call : Call α} (opens : Opens serializer call) :
    IsStream serializer key (clientHandshakePacket serializer key call).flatten := by
  obtain ⟨address, written⟩ := Option.isSome_iff_exists.mp opens.1
  refine ⟨call.destination, address, [_], written,
    by simpa using isFrame_of_written written, ?_⟩
  simp [clientHandshakePacket, written, opens.2, TrustTunnel.writeFrame_bytes]

theorem clientHandshakePacket_none (key : Bytes) {call : Call α}
    (fails : ¬ Opens serializer call) : clientHandshakePacket serializer key call = [] := by
  unfold clientHandshakePacket
  cases written : serializer.writeAddrPort call.destination with
  | none => rfl
  | some address => exact if_neg fun accepts => fails ⟨by rw [written]; rfl, accepts⟩

/-- Once the handshake counts as written, the packets go out as frames. -/
theorem sent_after (key : Bytes) (calls : List (Call α)) (sent : List Bytes) :
    ∃ frames, (calls.foldl (ClientPacketConn.writePacket serializer key) ⟨true, sent⟩).sent =
        sent ++ frames ∧ (∀ frame ∈ frames, IsFrame serializer frame) ∧
      (frames = [] ↔ ∀ call ∈ calls, ¬ Follows serializer call) := by
  induction calls generalizing sent with
  | nil => exact ⟨[], by simp⟩
  | cons call rest ih =>
    rw [foldl_cons, ClientPacketConn.writePacket, if_pos rfl]
    obtain ⟨frames, written, valid, none⟩ := ih (sent ++ writePacket serializer call)
    rw [written]
    obtain ⟨frame, one, isFrame, follows⟩ | ⟨nothing, stays⟩ := writePacket_frame serializer call
    · refine ⟨frame :: frames, by simp [one], by simpa [isFrame] using valid, ?_⟩
      simp [follows]
    · exact ⟨frames, by simp [nothing], valid, by simp [stays, none]⟩

theorem IsStream.append {key bytes : Bytes} (stream : IsStream serializer key bytes)
    {frames : List Bytes} (valid : ∀ frame ∈ frames, IsFrame serializer frame) :
    IsStream serializer key (bytes ++ frames.flatten) := by
  obtain ⟨destination, address, before, written, isFrames, rfl⟩ := stream
  refine ⟨destination, address, before ++ frames, written, ?_, by simp⟩
  rintro frame member
  exact (mem_append.mp member).elim (isFrames frame) (valid frame)

/-- A key is made of hexadecimal digits, and an address begins with none. -/
theorem hexDigit_ne : ∀ value < 16, hexDigit value ≠ 1 ∧ hexDigit value ≠ 3 ∧ hexDigit value ≠ 4 := by
  decide

theorem frame_not_inOrder (tagged : serializer.Tagged) {digest frame : Bytes} (rest : Bytes)
    (sized : digest.length = 28) (isFrame : IsFrame serializer frame) :
    ¬ InOrder serializer (Key digest) (frame ++ rest) := by
  obtain ⟨destination, address, payload, written, -, rfl⟩ := isFrame
  cases digest with
  | nil => cases sized
  | cons byte more =>
    have head := tagged destination address written
    have digit := hexDigit_ne (byte.toNat / 16) (by omega)
    cases address with
    | nil => simp at head
    | cons first address =>
      rintro (nothing | ⟨stream, ⟨_, _, _, -, -, rfl⟩, further, same⟩)
      · cases nothing
      · simp only [packetHeader, Key, flatMap_cons, cons_append, cons.injEq] at same
        simp only [head?_cons, Option.some.injEq, same.1] at head
        exact head.elim digit.1 fun head => head.elim digit.2.1 digit.2.2

/-- What the calls leave on the wire is the beginning of a valid stream exactly when the first
packet can be written, or none behind it. -/
theorem handshake_first_iff (tagged : serializer.Tagged) {digest : Bytes}
    (sized : digest.length = 28) (calls : List (Call α)) :
    InOrder serializer (Key digest)
        (calls.foldl (ClientPacketConn.writePacket serializer (Key digest)) {}).sent.flatten ↔
      (∀ call ∈ calls.head?, Opens serializer call) ∨
        ∀ call ∈ calls.tail, ¬ Follows serializer call := by
  cases calls with
  | nil => simp [InOrder]
  | cons call rest =>
    rw [foldl_cons, ClientPacketConn.writePacket, if_neg (by decide), nil_append]
    obtain ⟨frames, sent, valid, none⟩ :=
      sent_after (Key digest) rest (clientHandshakePacket serializer (Key digest) call)
    rw [sent, flatten_append]
    by_cases opens : Opens serializer call
    · have stream := clientHandshakePacket_stream (Key digest) opens
      exact iff_of_true (.inr ⟨_, stream.append valid, prefix_rfl⟩) (.inl (by simpa using opens))
    · rw [clientHandshakePacket_none _ opens, flatten_nil, nil_append]
      cases frames with
      | nil => exact iff_of_true (.inl rfl) (.inr (none.mp rfl))
      | cons frame more =>
        refine iff_of_false ?_ ?_
        · exact frame_not_inOrder tagged _ sized (valid frame mem_cons_self)
        · rintro (first | later)
          · exact opens (first call rfl)
          · cases none.mpr later

/-! The IPv4 and the domain form of `M.SocksaddrSerializer`. -/

def readUint (width : Nat) : Stream.Reader Nat := do
  let bytes ← Stream.readFull width
  pure (ofBigEndian bytes)

theorem takes_uint {width value : Nat} (fits : value < 256 ^ width) :
    Takes (readUint width) (bigEndian width value) value := by
  have read := map ofBigEndian (takes_full (bigEndian width value))
  rwa [bigEndian_length, ofBigEndian_bigEndian, Nat.mod_eq_of_lt fits] at read

theorem takes_port (port : BitVec 16) : Takes (readUint 2) (bigEndian 2 port.toNat) port.toNat :=
  takes_uint port.isLt

inductive Destination where
  | ipv4 (address : BitVec 32) (port : BitVec 16)
  | domain (name : Bytes) (port : BitVec 16)
  deriving DecidableEq

def Destination.bytes : Destination → Option Bytes
  | .ipv4 address port => some ([1] ++ (bigEndian 4 address.toNat ++ bigEndian 2 port.toNat))
  | .domain name port =>
    if name.length < 256 then
      some ([3] ++ (bigEndian 1 name.length ++ (name ++ bigEndian 2 port.toNat)))
    else none

def readDestination : Stream.Reader Destination := do
  let family ← Stream.readByte
  if family = 1 then
    let address ← readUint 4
    let port ← readUint 2
    pure (.ipv4 (BitVec.ofNat 32 address) (BitVec.ofNat 16 port))
  else if family = 3 then
    let size ← readUint 1
    let name ← Stream.readFull size
    let port ← readUint 2
    pure (.domain name (BitVec.ofNat 16 port))
  else throw "unknown address family"

theorem takes_destination {destination : Destination} {address : Bytes}
    (written : destination.bytes = some address) : Takes readDestination address destination := by
  cases destination with
  | ipv4 address port =>
    cases written
    refine bind (takes_byte 1) ?_
    rw [if_pos rfl]
    refine bind (takes_uint address.isLt) ?_
    have done := map (fun read => Destination.ipv4 address (BitVec.ofNat 16 read)) (takes_port port)
    simpa using done
  | domain name port =>
    rw [Destination.bytes] at written
    split at written
    · rename_i short
      cases written
      refine bind (takes_byte 3) ?_
      rw [if_neg (by decide), if_pos rfl]
      refine bind (takes_uint short) (bind (takes_full name) ?_)
      have done := map (fun read => Destination.domain name (BitVec.ofNat 16 read)) (takes_port port)
      simpa using done
    · cases written

def socksForm : Serializer Destination where
  writeAddrPort := Destination.bytes
  readAddrPort := readDestination
  takes := takes_destination

theorem socksForm_tagged : socksForm.Tagged := by
  intro destination address written
  cases destination with
  | ipv4 =>
    cases written
    exact .inl rfl
  | domain =>
    simp only [socksForm, Destination.bytes] at written
    split at written
    · cases written
      exact .inr (.inl rfl)
    · cases written

/-- 10.0.0.1:53 -/
def server : Destination := .ipv4 0x0a000001 53

/-- The digest of the examples, and its key: 56 times the letter a. -/
def digest : Bytes := replicate 28 0xaa

def packet (destination : Destination) : Call Destination := ⟨destination, ⟨400, [1]⟩, by decide, true⟩

def longName : Destination := .domain (replicate 256 97) 53

/-- A destination that cannot be written, behind one that can. -/
theorem handshake_first_sample :
    InOrder socksForm (Key digest) ([packet server, packet longName, packet server].foldl
      (ClientPacketConn.writePacket socksForm (Key digest)) {}).sent.flatten :=
  (handshake_first_iff socksForm_tagged rfl _).mpr (.inl (by
    rintro call same
    cases same
    exact ⟨rfl, rfl⟩))

/-- The first packet fails, and the second one goes out without the handshake. -/
theorem packet_before_handshake :
    ([packet longName, packet server].foldl
      (ClientPacketConn.writePacket socksForm (Key digest)) {}).sent.flatten =
        [1, 10, 0, 0, 1, 0, 53, 0, 1, 13, 10, 1] ∧
    ¬ InOrder socksForm (Key digest) [1, 10, 0, 0, 1, 0, 53, 0, 1, 13, 10, 1] :=
  ⟨by decide +kernel, frame_not_inOrder socksForm_tagged [] rfl
    ⟨server, [1, 10, 0, 0, 1, 0, 53], [1], by decide, by decide, rfl⟩⟩

/-! ## The key of a request -/

theorem takes_cause {reader : Stream.Reader α} {bytes : Bytes} {value : α} (text : String)
    (takes : Takes reader bytes value) : Takes (cause text reader) bytes value := by
  intro pieces rest arrived
  obtain ⟨left, done, remains⟩ := takes pieces rest arrived
  exact ⟨left, by rw [cause, done]; rfl, remains⟩

theorem takes_request {command : Byte} (valid : command ∈ [commandTCP, commandUDP, commandMux])
    {destination : α} {address : Bytes} (written : serializer.writeAddrPort destination = some address) :
    Takes (readRequest serializer) (crlf ++ ([command] ++ (address ++ crlf))) (command, destination) := by
  have skip := takes_cause "skip crlf" (takes_discard crlf)
  refine bind skip (bind (takes_cause _ (takes_byte command)) ?_)
  rw [if_pos (by simpa using valid)]
  exact bind (takes_cause _ (serializer.takes written)) (map (fun _ => (command, destination)) skip)

/-- A valid request of a user reaches the handler, with what follows it, exactly when the
first read holds the whole key. -/
theorem request_handled_iff {service : Service υ Bytes} (hasHandler : Bool) {key : Bytes} {user : υ}
    (known : service.keys key = some user) (sized : key.length = keyLength) {command : Byte}
    (valid : command ∈ [commandTCP, commandUDP, commandMux]) {destination : α} {address : Bytes}
    (written : serializer.writeAddrPort destination = some address) {conn : List Bytes}
    {rest : Bytes} (nonempty : ∀ piece ∈ conn, piece ≠ [])
    (arrived : conn.flatten = key ++ (crlf ++ ([command] ++ (address ++ crlf)) ++ rest)) :
    (∃ left, newConnection serializer service hasHandler conn =
        .handler user command destination left ∧ left.flatten = rest) ↔
      ∀ piece ∈ conn.head?, keyLength ≤ piece.length := by
  cases conn with
  | nil =>
    have none := congrArg length arrived
    simp [sized, keyLength] at none
  | cons piece more =>
    by_cases whole : keyLength ≤ piece.length
    · have cut : piece.take keyLength = key := by
        rw [← take_append_of_le_length whole, ← flatten_cons, arrived, ← sized, take_left]
      have behind := congrArg (drop keyLength) arrived
      rw [flatten_cons, drop_append_of_le_length whole, ← sized, drop_left, sized] at behind
      obtain ⟨left, done, remains⟩ := takes_request valid written (_ :: more) rest behind
      refine iff_of_true ⟨left, ?_, remains⟩ (by simpa using whole)
      cases piece with
      | nil => cases whole
      | cons =>
        simp only [newConnection, readOnce, cut, sized, ne_eq, not_true, if_false, known, done]
        rfl
    · have short : (piece.take keyLength).length ≠ keyLength := by
        rw [length_take]
        omega
      refine iff_of_false ?_ (by simpa using whole)
      rintro ⟨left, done, -⟩
      cases piece with
      | nil => exact nonempty [] mem_cons_self rfl
      | cons =>
        simp only [newConnection, readOnce, if_pos short, fallback] at done
        split at done <;> cases done

def oneUser : Service String Bytes where
  keys key := if key = Key digest then some "alice" else none

/-- A connection to 10.0.0.1:53 with the byte 5 behind it. -/
def request : Bytes := [13, 10, 1, 1, 10, 0, 0, 1, 0, 53, 13, 10, 5]

/-- The key arrives with the byte behind it, and the request in two pieces. -/
theorem whole_key_handled :
    ∃ left, newConnection socksForm oneUser true
        [Key digest ++ request.take 1, (request.drop 1).take 5, request.drop 6] =
      .handler "alice" commandTCP server left ∧ left.flatten = [5] :=
  (@request_handled_iff _ _ socksForm oneUser true (Key digest) "alice" (by decide) (by decide)
    commandTCP (by decide) server [1, 10, 0, 0, 1, 0, 53] (by decide) _ [5] (by decide)
    (by decide)).mpr (by decide)

/-- The first byte of the key arrives alone. -/
theorem cut_key_falls_back :
    newConnection socksForm oneUser true [[97], (Key digest).drop 1 ++ request] =
      .fallback [97] [[], (Key digest).drop 1 ++ request] :=
  rfl

/-- Whatever arrives in whatever pieces: a handler gets the connection of the user whose key is
at the front of the stream, and the fallback gets the whole stream, without such a key in its
first read. -/
theorem connection_guarded (service : Service υ Bytes) (hasHandler : Bool) (conn : List Bytes) :
    (∀ user command destination left, newConnection serializer service hasHandler conn =
      .handler user command destination left → service.keys (conn.flatten.take keyLength) = some user) ∧
    ∀ header left, newConnection serializer service hasHandler conn = .fallback header left →
      header ++ left.flatten = conn.flatten ∧ (header.length = keyLength → service.keys header = none) := by
  unfold newConnection
  cases read : readOnce keyLength conn with
  | none => exact ⟨nofun, nofun⟩
  | some found =>
    obtain ⟨key, rest⟩ := found
    have whole := readOnce_flatten read
    by_cases sized : key.length = keyLength
    · cases known : service.keys key with
      | none => cases hasHandler <;> simp [sized, known, fallback, whole]
      | some user =>
        have front : conn.flatten.take keyLength = key := by rw [← whole, ← sized, take_left]
        simp only [sized, known, front, ne_eq, not_true, if_false]
        cases readRequest serializer rest <;> simp +contextual
    · cases hasHandler <;> simp [sized, fallback, whole]

end AmneziaBox.Guarantees.TrojanStreams
