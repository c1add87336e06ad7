import AmneziaBox.Source.Adapter.InboundContext

/-!
# DNS messages as the client handles them

The parts of `dns/client.go` that compute and set TTLs and adapt OPT records, and the
accessors of `dns.Msg` and `dns.RR` that they use.
-/
namespace AmneziaBox.Source.Adapter

def typeA : Nat := 1
def typeAAAA : Nat := 28
def typeSOA : Nat := 6
def typeOPT : Nat := 41
def typeHTTPS : Nat := 65
def rcodeFormatError : Nat := 1
def rcodeNameError : Nat := 3
def edns0SUBNET : Nat := 8
def edns0PADDING : Nat := 12
def svcbIPv4Hint : Nat := 4
def svcbIPv6Hint : Nat := 6

def Record.rrtype (record : Record) : Nat :=
  match record.data with
  | .a _ => typeA
  | .aaaa _ => typeAAAA
  | .https _ => typeHTTPS
  | .soa _ => typeSOA
  | .opt _ => typeOPT
  | .other rrtype => rrtype

def SVCBValue.key : SVCBValue → Nat
  | .ipv4Hint _ => svcbIPv4Hint
  | .ipv6Hint _ => svcbIPv6Hint
  | .other key => key

def EDNS0.option : EDNS0 → Nat
  | .subnet _ _ _ => edns0SUBNET
  | .other code => code

def Addr.bitLen : Addr → Nat
  | .invalid => 0
  | .ipv4 _ => 32
  | .ipv6 _ => 128

/-- The records of the three sections. -/
def Msg.records (message : Msg) : List Record := message.answer ++ message.ns ++ message.extra

def Msg.mapRecords (f : Record → Record) (message : Msg) : Msg :=
  { message with
    answer := message.answer.map f
    ns := message.ns.map f
    extra := message.extra.map f }

def fixedResponseStatus (message : Msg) (rcode : Nat) : Msg where
  id := message.id
  response := true
  authoritative := true
  recursionDesired := true
  recursionAvailable := true
  rcode := rcode
  question := message.question

/-- `extractNegativeTTL`: of the first SOA record. -/
def extractNegativeTTL (response : Msg) : Option (BitVec 32) :=
  response.ns.findSome? fun record =>
    match record.data with
    | .soa minttl => some (if record.ttl < minttl then record.ttl else minttl)
    | _ => none

/-- One round of the loop of `computeTimeToLive`. -/
def lowerTTL (timeToLive : BitVec 32) (record : Record) : BitVec 32 :=
  if record.rrtype = typeOPT then timeToLive
  else if timeToLive = 0 ∨ (0 < record.ttl ∧ record.ttl < timeToLive) then record.ttl
  else timeToLive

def computeTimeToLive (response : Msg) : BitVec 32 :=
  match (if response.answer.isEmpty then extractNegativeTTL response else none) with
  | some soaTTL => soaTTL
  | none => response.records.foldl lowerTTL 0

def Record.withTTL (timeToLive : BitVec 32) (record : Record) : Record :=
  if record.rrtype = typeOPT then record else { record with ttl := timeToLive }

def normalizeTTL (response : Msg) (timeToLive : BitVec 32) : Msg :=
  response.mapRecords (Record.withTTL timeToLive)

/-- `IsEdns0`: the last OPT record. -/
def Msg.isEdns0 (message : Msg) : Option Record :=
  message.extra.reverse.find? fun record => record.rrtype == typeOPT

/-- `OPT.Version` and `OPT.Do`, out of the TTL. -/
def Record.ednsVersion (record : Record) : Nat := (record.ttl.toNat >>> 16) % 256
def Record.ednsDo (record : Record) : Bool := record.ttl.getLsbD 15

/-- The OPT record that `finishExchange` leaves for the version of the request. -/
def matchEdns0 (request response : Msg) : Msg :=
  match response.isEdns0 with
  | none => response
  | some responseOpt =>
    let stripped := { response with
      extra := response.extra.filter fun record => record.rrtype != typeOPT }
    match request.isEdns0 with
    | none => stripped
    | some requestOpt =>
      if requestOpt.ednsVersion < responseOpt.ednsVersion then
        { stripped with
          extra := stripped.extra ++ [{
            name := "."
            data := .opt []
            rrclass := responseOpt.rrclass
            ttl := if responseOpt.ednsDo then 0x8000 else 0 }] }
      else response

def filterOptions (keep : EDNS0 → Bool) (record : Record) : Record :=
  match record.data with
  | .opt options => { record with data := .opt (options.filter keep) }
  | _ => record

def stripDNSPadding (response : Msg) : Msg :=
  { response with
    extra := response.extra.map (filterOptions fun option => option.option != edns0PADDING) }

def removeClientSubnet (message : Msg) : Msg :=
  { message with
    extra := message.extra.map (filterOptions fun option => option.option != edns0SUBNET) }

end AmneziaBox.Source.Adapter
