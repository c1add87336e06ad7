import Mathlib.Data.List.Basic

/-!
# Inbound context: the metadata record that rules read and write

`adapter/inbound.go`. The record is split in three. `Query` holds the fields that
stay fixed while one connection or one DNS query is matched, `MatchInput` adds
the evaluated DNS responses, and `InboundContext` the rule cache, which the
evaluator sets, saves, restores and clears while it walks a rule tree.

The four legacy `...Match` booleans of the rule cache are cleared by
`ResetRuleMatchCache` and read nowhere, so they are not carried here.
`M.AddrFromIP` is outside the repository: an address record carries the address
it returns, invalid addresses included.
-/
namespace AmneziaBox.Source.Adapter

/-- `netip.Addr`; the zero value is the invalid address. -/
inductive Addr where
  | invalid
  | ipv4 (value : BitVec 32)
  | ipv6 (value : BitVec 128)
  deriving DecidableEq, Repr

def Addr.isValid : Addr → Bool
  | .invalid => false
  | _ => true

/-- `netip.Addr.Unmap`: an IPv4-mapped IPv6 address becomes the IPv4 address. -/
def Addr.unmap : Addr → Addr
  | .ipv6 value =>
    if value >>> 32 = 0xffff then .ipv4 (value.truncate 32) else .ipv6 value
  | addr => addr

structure Socksaddr where
  addr : Addr
  port : BitVec 16
  fqdn : String
  deriving DecidableEq, Repr

def Socksaddr.isIP (address : Socksaddr) : Bool := address.addr.isValid

/-- The address hints of an HTTPS record; other SVCB values are not addresses. -/
inductive SVCBValue where
  | ipv4Hint (hint : List Addr)
  | ipv6Hint (hint : List Addr)
  | other (key : Nat)
  deriving DecidableEq, Repr

/-- An option of an OPT record. The address of a subnet is the one that
`netip.AddrFromSlice` reads, invalid if it reads none. -/
inductive EDNS0 where
  | subnet (family sourceNetmask : Nat) (address : Addr)
  | other (code : Nat)
  deriving DecidableEq, Repr

inductive RecordData where
  | a (addr : Addr)
  | aaaa (addr : Addr)
  | https (values : List SVCBValue)
  | soa (minttl : BitVec 32)
  | opt (options : List EDNS0)
  | other (rrtype : Nat)
  deriving DecidableEq, Repr

/-- `dns.RR`; the class and the TTL of an OPT record carry other things. -/
structure Record where
  name : String
  data : RecordData
  rrclass : BitVec 16 := 1
  ttl : BitVec 32 := 0
  deriving DecidableEq, Repr

structure Question where
  name : String
  qtype : Nat
  qclass : Nat
  deriving DecidableEq, Repr

/-- `dns.Msg`, with the header bits the router and the rule actions set. -/
structure Msg where
  id : BitVec 16
  response : Bool := false
  authoritative : Bool := false
  recursionDesired : Bool := false
  recursionAvailable : Bool := false
  rcode : Nat := 0
  question : List Question := []
  answer : List Record := []
  ns : List Record := []
  extra : List Record := []
  deriving DecidableEq, Repr

def rcodeSuccess : Nat := 0
def rcodeRefused : Nat := 5

def SVCBValue.addresses : SVCBValue → List Addr
  | .ipv4Hint hint => (hint.map Addr.unmap).filter Addr.isValid
  | .ipv6Hint hint => hint.filter Addr.isValid
  | .other _ => []

def Record.addresses (record : Record) : List Addr :=
  match record.data with
  | .a addr => [addr].filter Addr.isValid
  | .aaaa addr => [addr].filter Addr.isValid
  | .https values => values.flatMap SVCBValue.addresses
  | _ => []

/-- `DNSResponseAddresses`: no addresses without a successful response. -/
def dnsResponseAddresses : Option Msg → List Addr
  | none => []
  | some response =>
    if response.rcode = rcodeSuccess then response.answer.flatMap Record.addresses else []

/-- `adapter/platform.go`: who opened the connection. -/
structure ConnectionOwner where
  processID : BitVec 32
  userId : Int
  userName : String
  processPaths : List String
  packageNames : List String
  deriving DecidableEq, Repr

/-- The fields of `InboundContext` that no rule evaluation writes. -/
structure Query where
  ipVersion : Nat := 0
  network : String := ""
  source : Socksaddr := ⟨.invalid, 0, ""⟩
  destination : Socksaddr := ⟨.invalid, 0, ""⟩
  domain : String := ""
  destinationAddresses : List Addr := []
  queryType : Nat := 0
  protocol : String := ""
  client : String := ""
  processInfo : Option ConnectionOwner := none
  sourceMACAddress : Option (List (BitVec 8)) := none
  sourceHostname : String := ""
  preMatch : Bool := false
  deriving DecidableEq, Repr

/-- What a rule item may read: the query and the DNS responses seen so far. The
rule cache is not part of it, so an ordinary item cannot depend on it. -/
structure MatchInput extends Query where
  dnsResponse : Option Msg := none
  namedDNSResponses : String → Option Msg := fun _ => none
  destinationAddressMatchFromResponse : Bool := false

structure InboundContext extends MatchInput where
  -- rule cache
  ipCIDRMatchSource : Bool := false
  ipCIDRAcceptEmpty : Bool := false
  deferredIPCIDRMatchGroups : BitVec 8 := 0
  ignoreDestinationIPCIDRMatch : Bool := false

def MatchInput.dnsResponseAddressesForMatch (input : MatchInput) : List Addr :=
  dnsResponseAddresses input.dnsResponse

namespace InboundContext

def resetRuleMatchCache (metadata : InboundContext) : InboundContext :=
  { metadata with deferredIPCIDRMatchGroups := 0 }

def resetRuleCache (metadata : InboundContext) : InboundContext :=
  { metadata with
    ipCIDRMatchSource := false
    ipCIDRAcceptEmpty := false
    deferredIPCIDRMatchGroups := 0 }

/-- Replace the deferred groups and nothing else. -/
def withDeferred (metadata : InboundContext) (groups : BitVec 8) : InboundContext :=
  { metadata with deferredIPCIDRMatchGroups := groups }

variable (metadata : InboundContext)

@[simp] theorem withDeferred_toMatchInput (groups : BitVec 8) :
    (metadata.withDeferred groups).toMatchInput = metadata.toMatchInput := rfl

@[simp] theorem withDeferred_deferred (groups : BitVec 8) :
    (metadata.withDeferred groups).deferredIPCIDRMatchGroups = groups := rfl

@[simp] theorem withDeferred_withDeferred (groups other : BitVec 8) :
    (metadata.withDeferred groups).withDeferred other = metadata.withDeferred other := rfl

variable {metadata : InboundContext}

theorem withDeferred_of_clean (clean : metadata.deferredIPCIDRMatchGroups = 0) :
    metadata.withDeferred 0#8 = metadata := by
  have self : metadata.withDeferred metadata.deferredIPCIDRMatchGroups = metadata := rfl
  rwa [clean] at self

/-- The rule cache as a rule finds it: flags off and nothing deferred. -/
structure Fresh (metadata : InboundContext) : Prop where
  matchSource : metadata.ipCIDRMatchSource = false
  acceptEmpty : metadata.ipCIDRAcceptEmpty = false
  deferred : metadata.deferredIPCIDRMatchGroups = 0

theorem resetRuleCache_of_fresh (fresh : metadata.Fresh) : metadata.resetRuleCache = metadata := by
  cases metadata
  obtain ⟨source, empty, deferred⟩ := fresh
  simp_all [resetRuleCache]

end InboundContext
end AmneziaBox.Source.Adapter
