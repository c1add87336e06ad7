import AmneziaBox.Library.Codec

/-!
# Fragmenting a TLS handshake

`common/tlsfragment`: the position of the server name in a ClientHello, and a connection
that cuts its first write inside the labels of that name, into packets, records or both.

The public suffix list and the random numbers are outside. `rand.Intn(n)` is a draw modulo
`n`, so that any function of draws gives every outcome. Socket options and the waiting
between packets do not touch the bytes and are left out. A Go panic is an outcome of its
own, and so is a loop that does not end.
-/
namespace AmneziaBox.Source.TLSFragment
open Library

/-! ## The server name -/

def recordLayerHeaderLen : Nat := 5
def handshakeHeaderLen : Nat := 6
def randomDataLen : Nat := 32
def sessionIDHeaderLen : Nat := 1
def cipherSuiteHeaderLen : Nat := 2
def compressMethodHeaderLen : Nat := 1
def extensionsHeaderLen : Nat := 2
def extensionHeaderLen : Nat := 4
def sniExtensionHeaderLen : Nat := 5
def contentType : Byte := 22
def handshakeType : Byte := 1
def sniExtensionType : Nat := 0
def sniNameDNSHostnameType : Byte := 0
def tlsVersionBitmask : Nat := 0xfffc
def tls13 : Nat := 0x0304

/-- A byte at an index that was checked. -/
def byteAt (index : Nat) (bytes : Bytes) : Byte := bytes.getD index 0

def uint16At (index : Nat) (bytes : Bytes) : Nat :=
  (byteAt index bytes).toNat * 256 + (byteAt (index + 1) bytes).toNat

structure MyServerName where
  index : Nat
  length : Nat
  serverName : Bytes
  extensionsListLengthIndex : Nat := 0
  deriving DecidableEq, Repr

/-- How the parser ends without a name. -/
inductive NoName where
  | absent
  /-- It does not: its loop over the extensions goes on. -/
  | looping
  deriving DecidableEq, Repr

/-- The loop over the extensions. The step `4 + exLen` is an `uint16` and wraps beyond 65535. A
step of 65536 does not move, and any other shortens the extensions: more rounds than they have
bytes tell whether the loop ends. -/
def scanExtensions : Nat → Nat → Bytes → Except NoName MyServerName
  | 0, _, _ => .error .looping
  | rounds + 1, currentIndex, exs =>
    if exs.isEmpty then .error .absent
    else if exs.length < extensionHeaderLen then .error .absent
    else
      let exType := uint16At 0 exs
      let exLen := uint16At 2 exs
      if exs.length < extensionHeaderLen + exLen then .error .absent
      else
        let sex := (exs.drop extensionHeaderLen).take exLen
        if exType = sniExtensionType then
          if sex.length < sniExtensionHeaderLen then .error .absent
          else if byteAt 2 sex ≠ sniNameDNSHostnameType then .error .absent
          else .ok {
            index := currentIndex + extensionHeaderLen + sniExtensionHeaderLen
            length := uint16At 3 sex
            serverName := sex.drop sniExtensionHeaderLen }
        else
          scanExtensions rounds (currentIndex + (4 + exLen)) (exs.drop ((4 + exLen) % 2 ^ 16))

def indexTLSServerNameFromExtensions (exs : Bytes) : Except NoName MyServerName :=
  if exs.length < extensionsHeaderLen then .error .absent
  else if (exs.drop extensionsHeaderLen).length < uint16At 0 exs then .error .absent
  else scanExtensions exs.length extensionsHeaderLen (exs.drop extensionsHeaderLen)

/-- The index of the extensions, behind the parts in front of them. -/
def extensionsIndex (handshake : Bytes) : Option Nat :=
  if handshake.length < handshakeHeaderLen + randomDataLen + sessionIDHeaderLen then none
  else if byteAt 0 handshake ≠ handshakeType then none
  else if handshake.length - 4 ≠ (byteAt 1 handshake).toNat * 65536 + uint16At 2 handshake then none
  else if uint16At 4 handshake &&& tlsVersionBitmask ≠ 0x0300 ∧ uint16At 4 handshake ≠ tls13 then
    none
  else
    let currentIndex := handshakeHeaderLen + randomDataLen + sessionIDHeaderLen +
      (byteAt 38 handshake).toNat
    if handshake.length < currentIndex then none
    else
      let cipherSuites := handshake.drop currentIndex
      if cipherSuites.length < cipherSuiteHeaderLen then none
      else
        let csLen := uint16At 0 cipherSuites
        if cipherSuites.length < cipherSuiteHeaderLen + csLen + compressMethodHeaderLen then none
        else
          let compressMethodLen := (byteAt (cipherSuiteHeaderLen + csLen) cipherSuites).toNat
          let currentIndex := currentIndex + (cipherSuiteHeaderLen + csLen +
            compressMethodHeaderLen + compressMethodLen)
          if handshake.length < currentIndex then none else some currentIndex

def indexTLSServerNameFromHandshake (handshake : Bytes) : Except NoName MyServerName :=
  match extensionsIndex handshake with
  | none => .error .absent
  | some currentIndex => do
    let serverName ← indexTLSServerNameFromExtensions (handshake.drop currentIndex)
    pure { serverName with
      index := serverName.index + currentIndex
      extensionsListLengthIndex := currentIndex }

def indexTLSServerName (payload : Bytes) : Except NoName MyServerName :=
  if payload.length < recordLayerHeaderLen ∨ byteAt 0 payload ≠ contentType then .error .absent
  else if payload.length < recordLayerHeaderLen + uint16At 3 payload then .error .absent
  else do
    let serverName ← indexTLSServerNameFromHandshake (payload.drop recordLayerHeaderLen)
    pure { serverName with
      index := serverName.index + recordLayerHeaderLen
      extensionsListLengthIndex := serverName.extensionsListLengthIndex + recordLayerHeaderLen }

/-! ## Where to cut -/

def dot : Byte := 46

/-- `strings.Split` at the dots. -/
def splitDots : Bytes → List Bytes
  | [] => [[]]
  | byte :: rest =>
    if byte = dot then [] :: splitDots rest
    else
      match splitDots rest with
      | [] => [[byte]]
      | first :: more => (byte :: first) :: more

/-- The labels that are cut: all of them without a public suffix, and else what is left
after as many as the whole name has dots, which is the first. -/
def labels (publicSuffix : Bytes → Bytes) (serverName : Bytes) : List Bytes :=
  let splits := splitDots serverName
  if publicSuffix serverName ≠ [] then splits.take (splits.length - serverName.count dot) else splits

/-- One index in each label, none if a label is empty and `rand.Intn` panics. -/
def splitIndexes (draw : Nat → Nat) : Nat → Nat → List Bytes → Option (List Nat)
  | _, _, [] => some []
  | i, currentIndex, split :: rest =>
    if split.length = 0 then none
    else do
      let next := currentIndex + split.length + if rest.isEmpty then 0 else 1
      let later ← splitIndexes draw (i + 1) next rest
      some ((currentIndex + draw i % split.length) :: later)

def allIndexes (publicSuffix : Bytes → Bytes) (draw : Nat → Nat) (name : MyServerName) :
    Option (List Nat) :=
  let splits := labels publicSuffix name.serverName
  if splits.length > 1 ∧ splits.headD [] = [dot, dot, dot] then
    splitIndexes draw 0 (name.index + (splits.headD []).length + 1) splits.tail
  else splitIndexes draw 0 name.index splits

/-! ## Writing -/

/-- `bytes[low:high]`, none if the bounds panic. -/
def slice (bytes : Bytes) (low high : Nat) : Option Bytes :=
  if low ≤ high ∧ high ≤ bytes.length then some ((bytes.drop low).take (high - low)) else none

/-- The payloads behind the first one. -/
def laterPayloads (b : Bytes) : Nat → List Nat → List (Option Bytes)
  | low, [] => [slice b low b.length]
  | low, high :: rest => slice b low high :: laterPayloads b high rest

/-- The payload of each round; without an index the first round panics. -/
def payloads (splitRecord : Bool) (b : Bytes) : List Nat → List (Option Bytes)
  | [] => [none]
  | first :: rest =>
    (do
      let payload ← slice b 0 first
      if splitRecord then slice payload recordLayerHeaderLen payload.length else some payload) ::
    laterPayloads b first rest

structure Conn where
  firstPacketWritten : Bool := false
  splitPacket : Bool
  splitRecord : Bool
  deriving DecidableEq, Repr

inductive Outcome where
  | panicked
  /-- `Write` does not return. -/
  | looping
  | failed (err : String)
  | returned (n : Nat)
  deriving DecidableEq, Repr

/-- What a call of `Write` did: the writes to the inner connection, and how it ended. -/
structure Written where
  conn : Conn
  segments : List Bytes
  outcome : Outcome
  deriving DecidableEq, Repr

/-- A record with the type and version of the first one. -/
def record (b payload : Bytes) : Bytes := b.take 3 ++ (bigEndian 2 payload.length ++ payload)

section Write
variable (conn : Conn) (send : Nat → Option String)

/-- The rounds over the payloads; `send` gives the error of each write, if it fails. The
result is the buffer and what was written, with the outcome if the rounds did not end. -/
def writePayloads (b : Bytes) : List (Option Bytes) → Bytes → List Bytes →
    Bytes × List Bytes × Option Outcome
  | [], buffer, segments => (buffer, segments, none)
  | none :: _, buffer, segments => (buffer, segments, some .panicked)
  | some payload :: rest, buffer, segments =>
    let buffer :=
      if conn.splitRecord then (if conn.splitPacket then [] else buffer) ++ record b payload
      else buffer
    let payload := if conn.splitRecord && conn.splitPacket then buffer else payload
    if conn.splitPacket then
      match send segments.length with
      | some err => (buffer, segments, some (.failed err))
      | none => writePayloads b rest buffer (segments ++ [payload])
    else writePayloads b rest buffer segments

/-- A write that goes to the inner connection as it is. -/
def passThrough (b : Bytes) : Written :=
  match send 0 with
  | some err => ⟨conn, [], .failed err⟩
  | none => ⟨conn, [b], .returned b.length⟩

/-- The rounds and what follows them, from the indexes on. -/
def writeFragments (b : Bytes) (indexes : List Nat) : Written :=
  let after := { conn with firstPacketWritten := true }
  match writePayloads conn send b (payloads conn.splitRecord b indexes) [] [] with
  | (_, segments, some outcome) => ⟨after, segments, outcome⟩
  | (buffer, segments, none) =>
    if conn.splitRecord && !conn.splitPacket then
      match send segments.length with
      | some err => ⟨after, segments, .failed err⟩
      | none => ⟨after, segments ++ [buffer], .returned b.length⟩
    else ⟨after, segments, .returned b.length⟩

def write (publicSuffix : Bytes → Bytes) (draw : Nat → Nat) (b : Bytes) : Written :=
  if !conn.firstPacketWritten && 0 < b.length then
    match indexTLSServerName b with
    | .error .absent =>
      { passThrough conn send b with conn := { conn with firstPacketWritten := true } }
    | .error .looping => ⟨conn, [], .looping⟩
    | .ok serverName =>
      match allIndexes publicSuffix draw serverName with
      | none => ⟨{ conn with firstPacketWritten := true }, [], .panicked⟩
      | some indexes => writeFragments conn send b indexes
  else passThrough conn send b

end Write
end AmneziaBox.Source.TLSFragment
