import AmneziaBox.Library.Stream

/-!
# Sniffing a stream

Embeds `PeekStream` of `common/sniff/sniff.go` and the stream sniffers of `bittorrent.go`,
`ssh.go`, `rdp.go` and `dns.go`. A sniffer reads the cached buffers and the read buffer one
after the other, through `io.MultiReader`: one `Read` of it ends with the buffer it reads from.
Of the metadata there are the fields the sniffers are for.

A connection is the list of what its reads return until one fails, at the deadline or at the
end of the stream; the stream fits into the read buffer. A `bufio.Reader` refills itself from
any number of reads, so what it returns depends on the joined bytes alone. `UnpackDomainName`
and `UnpackRR` belong to a DNS library and are left open.
-/
namespace AmneziaBox.Source.Sniff
open Library Stream

structure Metadata where
  protocol : String := ""
  client : Bytes := []
  domain : String := ""
  deriving DecidableEq, Repr

def protocolBitTorrent : String := "bittorrent"
def protocolSSH : String := "ssh"
def protocolRDP : String := "rdp"
def protocolDNS : String := "dns"

inductive SniffError where
  /-- `ErrNeedMoreData`, with the error of a read as its cause or alone -/
  | needMoreData (cause : Option String)
  /-- `os.ErrInvalid` -/
  | invalid
  /-- an error of the DNS library -/
  | unpack (err : String)
  deriving DecidableEq, Repr

/-- `errors.Is(err, ErrNeedMoreData)`. -/
def SniffError.needsMore : SniffError → Bool
  | .needMoreData _ => true
  | .invalid | .unpack _ => false

abbrev StreamSniffer := Metadata → List Bytes → Except SniffError Metadata

abbrev SniffReader := StateT (List Bytes) (Except SniffError)

variable {α : Type}

/-- An error of the read means that more data is needed. -/
def orNeedMore (reader : Stream.Reader α) : SniffReader α := fun pieces =>
  match reader pieces with
  | .ok read => .ok read
  | .error cause => .error (.needMoreData (some cause))

/-- `os.ErrInvalid` unless the check holds. -/
def require (valid : Bool) : SniffReader Unit := if valid then pure () else throw .invalid

/-- A sniffer that writes what it read to the metadata. -/
def sniffer (reader : SniffReader α) (record : Metadata → α → Metadata) : StreamSniffer :=
  fun metadata pieces => (reader pieces).map fun read => record metadata read.1

/-- The bytes of a text of ASCII characters. -/
def ascii (text : String) : Bytes := text.toList.map fun char => BitVec.ofNat 8 char.toNat

/-! ## BitTorrent -/

def bitTorrentHeader : Bytes := ascii "BitTorrent protocol"

/-- The single `Read` of the header after its length. -/
def readBitTorrentHeader : SniffReader Unit := fun pieces =>
  match readOnce 19 pieces with
  | none => .error (.needMoreData (some "EOF"))
  | some (protocol, left) =>
    if protocol ≠ bitTorrentHeader.take protocol.length then .error .invalid
    else if protocol.length < 19 then .error (.needMoreData none)
    else .ok ((), left)

def readBitTorrent : SniffReader Unit := do
  let first ← orNeedMore readByte
  require (first == 19)
  readBitTorrentHeader

def bitTorrent : StreamSniffer :=
  sniffer readBitTorrent fun metadata _ => { metadata with protocol := protocolBitTorrent }

/-! ## SSH -/

def sshPrefix : Bytes := ascii "SSH-2.0-"

/-- The buffer of a `bufio.Reader`. -/
def defaultBufSize : Nat := 4096

def carriageReturn : Byte := 13
def newline : Byte := 10

/-- The line without a last carriage return. -/
def dropCarriageReturn (line : Bytes) : Bytes :=
  if line.getLast? = some carriageReturn then line.dropLast else line

/-- `bufio.Reader.ReadLine` of a stream that is not at its end: up to the first newline, which
is not part of the line, nor is a carriage return in front of it. A line that fills the buffer
is returned in part, without a carriage return that may belong to its end. At the end of the
stream a line needs no newline. -/
def readLine (data : Bytes) : Bytes :=
  let buffered := data.take defaultBufSize
  if newline ∈ buffered then dropCarriageReturn (buffered.takeWhile (· ≠ newline))
  else if buffered.length = defaultBufSize then dropCarriageReturn buffered
  else buffered

/-- The version after `SSH-2.0-`. -/
def readSSH : SniffReader Bytes := fun pieces =>
  let data := pieces.flatten
  let peeked := data.take sshPrefix.length
  if peeked ≠ sshPrefix.take peeked.length then .error .invalid
  else if peeked.length < sshPrefix.length then .error (.needMoreData (some "EOF"))
  else .ok ((readLine data).drop 8, [])

def ssh : StreamSniffer :=
  sniffer readSSH fun metadata client => { metadata with protocol := protocolSSH, client }

/-! ## RDP -/

/-- `binary.Read` of a `uint8` that must have one value. -/
def expectByte (value : Byte) : SniffReader Unit := do
  let byte ← orNeedMore readByte
  require (byte == value)

/-- `binary.Read` of a big-endian `uint16`. -/
def readUint16 : SniffReader Nat := do
  let bytes ← orNeedMore (readFull 2)
  return ofBigEndian bytes

def readRDP : SniffReader Unit := do
  expectByte 0x03
  expectByte 0x00
  let tpktLength ← readUint16
  require (tpktLength == 19)
  expectByte 14
  expectByte 0xE0
  orNeedMore (discard 5)
  expectByte 0x01
  let _rdpFlags ← orNeedMore readByte
  expectByte 8

def rdp : StreamSniffer :=
  sniffer readRDP fun metadata _ => { metadata with protocol := protocolRDP }

/-! ## DNS -/

def dnsHeaderSize : Nat := 12

def uint16At (bytes : Bytes) (index : Nat) : Nat := ofBigEndian ((bytes.drop index).take 2)

/-- What is wrong with a query header at a byte; the check is made when there is this byte. -/
def headerChecks : List (Nat × (Bytes → Bool)) :=
  [ (2, fun header =>
      let flags := header.getD 2 0
      -- response, opcode, authoritative, truncated
      flags &&& 0x80 != 0 || (flags >>> 3) &&& 0x0F != 0 || flags &&& 0x04 != 0 ||
        flags &&& 0x02 != 0),
    (3, fun header =>
      let flags := header.getD 3 0
      -- recursion available, reserved, response code
      flags &&& 0x80 != 0 || flags &&& 0x40 != 0 || flags &&& 0x0F != 0),
    (5, fun header => uint16At header 4 == 0),
    (7, fun header => uint16At header 6 != 0),
    (9, fun header => uint16At header 8 != 0) ]

def verifyDNSQueryHeader (header : Bytes) : Except SniffError Unit :=
  if headerChecks.any fun check => decide (check.1 < header.length) && check.2 header then
    .error .invalid
  else .ok ()

section
variable (unpackDomainName unpackRR : Bytes → Nat → Except String Nat)

/-- The offset after the questions. -/
def skipQuestions (packet : Bytes) : Nat → Nat → Except SniffError Nat
  | 0, offset => .ok offset
  | count + 1, offset => do
    let offset ← (unpackDomainName packet offset).mapError .unpack
    if packet.length < offset + 4 then .error .invalid
    else skipQuestions packet count (offset + 4)

/-- The offset after the additional records. -/
def skipRecords (packet : Bytes) : Nat → Nat → Except SniffError Nat
  | 0, offset => .ok offset
  | count + 1, offset => do
    let offset ← (unpackRR packet offset).mapError .unpack
    skipRecords packet count offset

def domainNameQuery (packet : Bytes) : Except SniffError Unit :=
  if packet.length < dnsHeaderSize then .error .invalid
  else do
    verifyDNSQueryHeader packet
    let offset ← skipQuestions unpackDomainName packet (uint16At packet 4) dnsHeaderSize
    let offset ← skipRecords unpackRR packet (uint16At packet 10) offset
    if offset ≠ packet.length then .error .invalid else .ok ()

/-- `ReadFullFrom` and what follows it: a part of the message is looked at too. -/
def readQuery (length : Nat) : SniffReader Unit := fun pieces =>
  let (packet, left) := takeBytes length pieces
  if length ≤ packet.length then
    (domainNameQuery unpackDomainName unpackRR packet).map fun _ => ((), left)
  else
    (verifyDNSQueryHeader packet).bind fun _ =>
      .error (.needMoreData (some (if packet.isEmpty then "EOF" else "unexpected EOF")))

def readStreamQuery : SniffReader Unit := do
  let length ← readUint16
  require (dnsHeaderSize ≤ length)
  readQuery unpackDomainName unpackRR length

def streamDomainNameQuery : StreamSniffer :=
  sniffer (readStreamQuery unpackDomainName unpackRR) fun metadata _ =>
    { metadata with protocol := protocolDNS }

end

/-! ## PeekStream -/

/-- The sniffers in their order: the first that succeeds, or all errors. -/
def trySniffers : List StreamSniffer → Metadata → List Bytes → Except (List SniffError) Metadata
  | [], _, _ => .error []
  | sniffer :: rest, metadata, pieces =>
    match sniffer metadata pieces with
    | .ok found => .ok found
    | .error err => (trySniffers rest metadata pieces).mapError (err :: ·)

inductive PeekError where
  | readPayload
  | sniffErrors (errs : List SniffError)
  deriving DecidableEq, Repr

/-- What `PeekStream` returns and leaves in the metadata; no errors are no error. -/
structure Peeked where
  error : PeekError
  metadata : Metadata
  deriving DecidableEq, Repr

/-- The rounds of `PeekStream`; the read buffer grows with every read. -/
def peekLoop (sniffers : List StreamSniffer) (buffers : List Bytes) (metadata : Metadata) :
    Bytes → PeekError → List Bytes → Peeked
  | _, error, [] => ⟨error, metadata⟩
  | buffer, _, read :: reads =>
    match trySniffers sniffers metadata (buffers ++ [buffer ++ read]) with
    | .ok found => ⟨.sniffErrors [], found⟩
    | .error errs =>
      if errs.any SniffError.needsMore then
        peekLoop sniffers buffers metadata (buffer ++ read) (.sniffErrors errs) reads
      else ⟨.sniffErrors errs, metadata⟩

/-- `PeekStream` with cached buffers, an empty read buffer and a connection. -/
def peekStream (sniffers : List StreamSniffer) (buffers reads : List Bytes)
    (metadata : Metadata) : Peeked :=
  peekLoop sniffers buffers metadata [] .readPayload reads

end AmneziaBox.Source.Sniff
