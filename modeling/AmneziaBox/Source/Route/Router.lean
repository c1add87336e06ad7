import AmneziaBox.Library.Loop
import AmneziaBox.Source.Route.RuleAction

/-!
# The connection router

`route/route.go`: `prepareMatchMetadata`, `PreMatch` with `preMatchFlow`, and
`matchRule` with `actionResolve`. Both loops walk the same rules over a metadata
record that they change on the way.

The services of the router are parameters: the process searcher, the neighbor
resolver, the fakeip store, the reverse mapping, the DNS router and the outbounds.
`actionSniff` reads from the connection and is a parameter of `matchRule`. The
tracker of a flow is left out. `PreMatch` is modelled with what its loop knew when it
ended, not only with what it returns.
-/
namespace AmneziaBox.Source.Route
open Adapter Rule Library

inductive PreMatchAction where
  | continue | flow | reject | drop | bypass | hijackDNS
  deriving DecidableEq, Repr

/-- An outbound at the end of a chain; `preMatchFlow` is absent unless it is an
`adapter.FlowOutbound`. -/
structure Outbound where
  tag : String
  preMatchFlow : Option (String → Addr → PreMatchAction) := none

/-- `adapter.PreMatchResult`; an absent destination is the zero `netip.AddrPort`. -/
structure PreMatchResult where
  action : PreMatchAction
  outbound : Option String := none
  destination : Option (Addr × BitVec 16) := none
  udpTimeout : Int := 0
  deriving DecidableEq, Repr

structure Router where
  rules : List ConnectionRule
  /-- `M.IsDomainName`. -/
  isDomainName : String → Bool
  isLocalSource : Addr → Bool := fun _ => false
  /-- Nothing without a process searcher or when it fails. -/
  findProcessInfo : String → Socksaddr → Addr × BitVec 16 → Option ConnectionOwner :=
    fun _ _ _ => none
  lookupMAC : Addr → Option (List (BitVec 8)) := fun _ => none
  lookupHostname : Addr → Option String := fun _ => none
  fakeIPContains : Addr → Bool := fun _ => false
  fakeIPLookup : Addr → Option String := fun _ => none
  lookupReverseMapping : Addr → Option String := fun _ => none
  transport : String → Option DNS.DNSTransport := fun _ => none
  lookup : MatchInput → String → Option DNS.DNSTransport → DNS.DNSQueryOptions →
    Except String (List Addr)
  defaultOutbound : Outbound
  outbound : String → Option Outbound := fun _ => none
  /-- The end of the chain of `resolveOutbound`, if it supports the network. -/
  resolveOutbound : Outbound → String → Option Outbound := fun outbound _ => some outbound
  defaultPacketSniffers : List PacketSniffer := []
  flooded : RuleActionReject → Bool := fun _ => false

def networkUDP : String := "udp"
def networkICMP : String := "icmp"

/-- `constant.PortProtocols`, empty for other ports. -/
def portProtocol (port : BitVec 16) : String :=
  if port = 53 then "dns" else if port = 123 then "ntp" else if port = 3478 then "stun"
  else if port = 443 then "quic" else ""

/-- `constant.ProtocolTimeouts` in nanoseconds, zero for other protocols. -/
def protocolTimeout (protocol : String) : Int :=
  let second : Int := 1000000000
  if protocol = "dns" ∨ protocol = "ntp" ∨ protocol = "stun" then 10 * second
  else if protocol = "quic" ∨ protocol = "dtls" then 30 * second else 0

/-- `netip.Addr.Is4`. -/
def is4 : Addr → Bool
  | .ipv4 _ => true
  | _ => false

/-- The options of an action that `matchRule` applies. -/
def RuleAction.routeOptions? : RuleAction → Option RuleActionRouteOptions
  | .route _ options => some options
  | .routeOptions options => some options
  | .bypass outbound options => if outbound ≠ "" then some options else none
  | _ => none

namespace Router

def isDomain (router : Router) (address : Socksaddr) : Bool := router.isDomainName address.fqdn

def isValid (router : Router) (address : Socksaddr) : Bool :=
  address.isIP || router.isDomain address

/-! ## `prepareMatchMetadata` -/

/-- `searchProcessInfo`; a failed search leaves nil. -/
def searchProcessInfo (router : Router) (metadata : RouteMetadata) : RouteMetadata :=
  let originDestination : Addr × BitVec 16 :=
    if router.isValid metadata.originDestination then
      (metadata.originDestination.addr, metadata.originDestination.port)
    else if metadata.destination.isIP then (metadata.destination.addr, metadata.destination.port)
    else (.invalid, 0)
  { metadata with
    processInfo :=
      if metadata.processInfo.isSome || !router.isLocalSource metadata.source.addr then
        metadata.processInfo
      else router.findProcessInfo metadata.network metadata.source originDestination }

def searchNeighbor (router : Router) (metadata : RouteMetadata) : RouteMetadata :=
  if metadata.sourceMACAddress.isNone && metadata.source.addr.isValid then
    { metadata with
      sourceMACAddress := router.lookupMAC metadata.source.addr
      sourceHostname := (router.lookupHostname metadata.source.addr).getD metadata.sourceHostname }
  else metadata

def setIPVersion (metadata : RouteMetadata) : RouteMetadata :=
  match metadata.destination.addr with
  | .ipv4 _ => { metadata with ipVersion := 4 }
  | .ipv6 _ => { metadata with ipVersion := 6 }
  | .invalid => metadata

/-- The domain of a fake address or, for others, of the reverse mapping. -/
def searchDomain (router : Router) (metadata : RouteMetadata) : Except String RouteMetadata :=
  let address := metadata.destination.addr
  if address.isValid && router.fakeIPContains address then
    match router.fakeIPLookup address with
    | none => .error "missing fakeip record, try enable `experimental.cache_file`"
    | some domain =>
      if domain ≠ "" then
        .ok { metadata with
          originDestination := metadata.destination
          destination := ⟨.invalid, metadata.destination.port, domain⟩
          fakeIP := true }
      else .ok metadata
  else if metadata.domain = "" then
    match router.lookupReverseMapping address with
    | some domain => .ok { metadata with domain := domain }
    | none => .ok metadata
  else .ok metadata

def prepareMatchMetadata (router : Router) (metadata : RouteMetadata) :
    Except String RouteMetadata :=
  (router.searchDomain (router.searchNeighbor (router.searchProcessInfo metadata))).map setIPVersion

/-! ## Actions of both loops -/

/-- `ResetRuleCache` and `Match`, as both loops begin a rule. -/
def matchOn (rule : ConnectionRule) (metadata : RouteMetadata) : Bool × RouteMetadata :=
  let (matched, context) := rule.tree.matchOn metadata.toInboundContext.resetRuleCache
  (matched, { metadata with toInboundContext := context })

def applyRouteOptionsOverride (router : Router) (options : RuleActionRouteOptions)
    (metadata : RouteMetadata) : RouteMetadata :=
  let metadata :=
    if router.isValid options.overrideAddress then
      { metadata with destination :=
          ⟨options.overrideAddress.addr, metadata.destination.port, options.overrideAddress.fqdn⟩ }
    else metadata
  let metadata :=
    if options.overridePort ≠ 0 then
      { metadata with destination := { metadata.destination with port := options.overridePort } }
    else metadata
  if options.udpTimeout > 0 then
    { metadata with dial := { metadata.dial with udpTimeout := options.udpTimeout } }
  else metadata

/-- What a lookup sees of the connection. `Lookup` clears the destination and the DNS
responses, and no item of a DNS rule reads the `PreMatch` flag. -/
def lookupInput (metadata : RouteMetadata) : MatchInput :=
  { metadata.toMatchInput with
    destination := noAddress
    preMatch := false
    dnsResponse := none
    namedDNSResponses := fun _ => none
    destinationAddressMatchFromResponse := false }

/-- The server of a `resolve` action and its lookup. -/
def resolveDomain (router : Router) (action : RuleActionResolve) (input : MatchInput)
    (domain : String) : Except String (List Addr) :=
  let options : DNS.DNSQueryOptions :=
    { strategy := action.strategy
      disableCache := action.disableCache
      disableOptimisticCache := action.disableOptimisticCache
      rewriteTTL := action.rewriteTTL
      timeout := action.timeout
      clientSubnet := action.clientSubnet }
  if action.server = "" then router.lookup input domain none options
  else
    match router.transport action.server with
    | some transport => router.lookup input domain (some transport) options
    | none => .error ("DNS server not found: " ++ action.server)

def setDestinationAddresses (metadata : RouteMetadata) (addresses : List Addr) : RouteMetadata :=
  { metadata with destinationAddresses := addresses }

def actionResolve (router : Router) (action : RuleActionResolve) (metadata : RouteMetadata) :
    Except String RouteMetadata :=
  if router.isDomain metadata.destination then
    (router.resolveDomain action (lookupInput metadata) metadata.destination.fqdn).map
      (setDestinationAddresses metadata)
  else .ok metadata

/-! ## `PreMatch` -/

/-- How the loop of `PreMatch` ended. The decision is the index of a route, reject,
hijack-dns or bypass rule with an outbound, `some none` for the default outbound and
`none` when the loop returned for another reason. -/
structure PreMatchRun where
  result : PreMatchResult
  decision : Option (Option Nat)
  metadata : RouteMetadata

def continueResult : PreMatchResult := { action := .continue }

/-- The destination of a flow in place of the packet's. -/
def flowDestination (metadata : RouteMetadata) (packetDestination : Socksaddr) :
    Option (Addr × BitVec 16) :=
  if metadata.destination ≠ packetDestination then
    some (metadata.destination.addr, metadata.destination.port)
  else none

def flowTimeout (metadata : RouteMetadata) : Int :=
  if metadata.network ≠ networkUDP then 0
  else if metadata.dial.udpTimeout > 0 then metadata.dial.udpTimeout
  else
    protocolTimeout
      (if metadata.protocol = "" then portProtocol metadata.destination.port else metadata.protocol)

/-- `preMatchFlow`. -/
def preMatchFlow (router : Router) (metadata : RouteMetadata) (packetDestination : Socksaddr)
    (outboundTag : String) : PreMatchResult :=
  let named := if outboundTag = "" then some router.defaultOutbound else router.outbound outboundTag
  match named.bind fun outbound => router.resolveOutbound outbound metadata.network with
  | none => continueResult
  | some outbound =>
    match outbound.preMatchFlow with
    | none => continueResult
    | some flow =>
      let flowAction := flow metadata.network metadata.destination.addr
      if flowAction ≠ .flow then { action := flowAction, outbound := some outbound.tag }
      else
        let result : PreMatchResult :=
          { action := .flow, outbound := some outbound.tag, udpTimeout := flowTimeout metadata }
        if router.isDomain metadata.destination then
          if !metadata.fakeIP then continueResult
          else
            match metadata.destinationAddresses.find? fun address =>
              is4 address == is4 packetDestination.addr with
            | none => { action := .reject }
            | some newDestination =>
              if !newDestination.isValid then { action := .reject }
              else
                let flowAction := flow metadata.network newDestination
                if flowAction ≠ .flow then { action := flowAction, outbound := some outbound.tag }
                else { result with destination := some (newDestination, metadata.destination.port) }
        else { result with destination := flowDestination metadata packetDestination }

/-- `sniff.Skip`. -/
def skipSniff (metadata : RouteMetadata) : Bool :=
  [25, 465, 587, 143, 993, 110, 995].contains metadata.destination.port

/-- `sniff.PeekPacket`: the first sniffer without an error ends it. -/
def peekPacket (packet : List (BitVec 8)) :
    List PacketSniffer → List SniffFailure → RouteMetadata → RouteMetadata × List SniffFailure
  | [], failures, metadata => (metadata, failures)
  | sniffer :: rest, failures, metadata =>
    match sniffer metadata packet with
    | (metadata, none) => (metadata, [])
    | (metadata, some failure) => peekPacket packet rest (failures ++ [failure]) metadata

/-- The `sniff` case of `PreMatch`. -/
def preMatchSniff (router : Router) (firstPacket : List (BitVec 8)) (action : RuleActionSniff)
    (metadata : RouteMetadata) : LoopStep RouteMetadata PreMatchRun :=
  if metadata.network = networkICMP then .next metadata
  else if metadata.network ≠ networkUDP || firstPacket.isEmpty then
    .stop ⟨continueResult, none, metadata⟩
  else if skipSniff metadata || metadata.protocol ≠ "" then .next metadata
  else if action.packetSniffers.isEmpty && action.streamSniffers > 0 then .next metadata
  else if metadata.snifferNames = action.snifferNames && !metadata.sniffError.isEmpty then
    .next metadata
  else
    let packetSniffers :=
      if action.packetSniffers.isEmpty then router.defaultPacketSniffers
      else action.packetSniffers
    let (metadata, failures) := peekPacket firstPacket packetSniffers [] metadata
    let metadata :=
      { metadata with snifferNames := action.snifferNames, sniffError := failures }
    if !failures.isEmpty then
      if failures.contains .needMoreData then .stop ⟨continueResult, none, metadata⟩
      else .next metadata
    else if action.overrideDestination && router.isDomainName metadata.domain then
      .next { metadata with
        destination := ⟨.invalid, metadata.destination.port, metadata.domain⟩ }
    else .next metadata

/-- A `bypass` rule with an outbound: a flow that keeps the packet's destination is
bypassed, and so is a packet that no flow takes. -/
def preMatchBypass (router : Router) (metadata : RouteMetadata) (packetDestination : Socksaddr)
    (outbound : String) : PreMatchResult :=
  let result := router.preMatchFlow metadata packetDestination outbound
  if router.isDomain metadata.destination || metadata.destination ≠ packetDestination then result
  else if result.action ≠ .flow then { action := .bypass }
  else { result with action := .bypass }

def preMatchReject (router : Router) (action : RuleActionReject) (network : String) :
    PreMatchResult :=
  match action.error (router.flooded action) with
  | none => if network = networkICMP then continueResult else { action := .reject }
  | some .drop => { action := .drop }
  | some .reset => { action := .reject }

/-- The body of the loop of `PreMatch`. -/
def preMatchRule (router : Router) (packetDestination : Socksaddr) (firstPacket : List (BitVec 8))
    (index : Nat) (rule : ConnectionRule) (metadata : RouteMetadata) :
    LoopStep RouteMetadata PreMatchRun :=
  let (matched, metadata) := matchOn rule metadata
  if matched then
    match rule.action with
    | .sniff action => router.preMatchSniff firstPacket action metadata
    | .routeOptions options => .next (router.applyRouteOptionsOverride options metadata)
    | .route outbound options =>
      let metadata := router.applyRouteOptionsOverride options metadata
      .stop ⟨router.preMatchFlow metadata packetDestination outbound, some (some index), metadata⟩
    | .bypass outbound options =>
      let metadata := router.applyRouteOptionsOverride options metadata
      if outbound = "" then
        if router.isDomain metadata.destination || metadata.destination ≠ packetDestination then
          .stop ⟨continueResult, none, metadata⟩
        else .stop ⟨{ action := .bypass }, none, metadata⟩
      else
        .stop ⟨router.preMatchBypass metadata packetDestination outbound, some (some index),
          metadata⟩
    | .reject action =>
      .stop ⟨router.preMatchReject action metadata.network, some (some index), metadata⟩
    | .hijackDNS =>
      .stop ⟨if metadata.network ≠ networkUDP then continueResult else { action := .hijackDNS },
        some (some index), metadata⟩
    | .resolve action =>
      match router.actionResolve action metadata with
      | .ok metadata => .next metadata
      | .error _ => .stop ⟨{ action := .reject }, none, metadata⟩
  else .next metadata

/-- After the last rule: the default outbound. -/
def preMatchDefault (router : Router) (packetDestination : Socksaddr) (metadata : RouteMetadata) :
    PreMatchRun :=
  ⟨router.preMatchFlow metadata packetDestination "", some none, metadata⟩

def withPreMatch (metadata : RouteMetadata) : RouteMetadata := { metadata with preMatch := true }

def preMatch (router : Router) (metadata : RouteMetadata) (firstPacket : List (BitVec 8)) :
    PreMatchRun :=
  let packetDestination := metadata.destination
  match router.prepareMatchMetadata (withPreMatch metadata) with
  | .error _ => ⟨continueResult, none, metadata⟩
  | .ok metadata =>
    loop (router.preMatchRule packetDestination firstPacket)
      (router.preMatchDefault packetDestination) 0 router.rules metadata

/-! ## `matchRule` -/

/-- The assignments of `matchRule` to the options for the outbound. -/
def updateDial (dial options : DialOptions) : DialOptions where
  networkStrategy := options.networkStrategy <|> dial.networkStrategy
  networkType := if options.networkType.isEmpty then dial.networkType else options.networkType
  fallbackNetworkType :=
    if options.fallbackNetworkType.isEmpty then dial.fallbackNetworkType
    else options.fallbackNetworkType
  fallbackDelay := if options.fallbackDelay ≠ 0 then options.fallbackDelay else dial.fallbackDelay
  udpDisableDomainUnmapping := options.udpDisableDomainUnmapping || dial.udpDisableDomainUnmapping
  udpConnect := options.udpConnect || dial.udpConnect
  udpTimeout := if options.udpTimeout > 0 then options.udpTimeout else dial.udpTimeout
  tlsFragment := options.tlsFragment || dial.tlsFragment
  tlsFragmentFallbackDelay :=
    if options.tlsFragment then options.tlsFragmentFallbackDelay else dial.tlsFragmentFallbackDelay
  tlsRecordFragment := options.tlsRecordFragment || dial.tlsRecordFragment
  tlsSpoof := if options.tlsSpoof ≠ "" then options.tlsSpoof else dial.tlsSpoof
  tlsSpoofMethod := if options.tlsSpoof ≠ "" then options.tlsSpoofMethod else dial.tlsSpoofMethod

/-- The block of `matchRule` under `routeOptions != nil`. An address override also
clears the destination addresses here. -/
def applyRouteOptions (router : Router) (options : RuleActionRouteOptions)
    (metadata : RouteMetadata) : RouteMetadata :=
  let overrides := router.isValid options.overrideAddress
  let metadata :=
    if (overrides || options.overridePort ≠ 0) &&
        !router.isValid metadata.routeOriginalDestination then
      { metadata with routeOriginalDestination := metadata.destination }
    else metadata
  let metadata := if overrides then setDestinationAddresses metadata [] else metadata
  let metadata := router.applyRouteOptionsOverride options metadata
  { metadata with dial := updateDial metadata.dial options.toDialOptions }

/-- The results of `matchRule`; nothing selected is the default outbound. -/
structure MatchRun (κ : Type) where
  selected : Option Nat := none
  fatalErr : Option String := none
  metadata : RouteMetadata
  connection : κ

section Match
variable {κ : Type}
  (actionSniff : RuleActionSniff → RouteMetadata → κ → (RouteMetadata × κ) × Option String)

/-- The second `switch` of the body and the choice to stop. -/
def matchAction (router : Router) (index : Nat) (action : RuleAction) (metadata : RouteMetadata)
    (connection : κ) : LoopStep (RouteMetadata × κ) (MatchRun κ) :=
  match action with
  | .sniff action =>
    match actionSniff action metadata connection with
    | (state, none) => .next state
    | ((metadata, connection), some err) =>
      .stop { fatalErr := some err, metadata := metadata, connection := connection }
  | .resolve action =>
    match router.actionResolve action metadata with
    | .ok metadata => .next (metadata, connection)
    | .error err => .stop { fatalErr := some err, metadata := metadata, connection := connection }
  | .routeOptions _ => .next (metadata, connection)
  | .bypass outbound _ =>
    if outbound = "" then .next (metadata, connection)
    else .stop { selected := some index, metadata := metadata, connection := connection }
  | _ => .stop { selected := some index, metadata := metadata, connection := connection }

/-- The body of the loop of `matchRule`. -/
def matchRuleBody (router : Router) (index : Nat) (rule : ConnectionRule) (state : RouteMetadata × κ) :
    LoopStep (RouteMetadata × κ) (MatchRun κ) :=
  let (matched, metadata) := matchOn rule state.1
  if matched then
    let metadata :=
      match rule.action.routeOptions? with
      | some options => router.applyRouteOptions options metadata
      | none => metadata
    router.matchAction actionSniff index rule.action metadata state.2
  else .next (metadata, state.2)

def matchRule (router : Router) (metadata : RouteMetadata) (connection : κ) : MatchRun κ :=
  match router.prepareMatchMetadata metadata with
  | .error err => { fatalErr := some err, metadata := metadata, connection := connection }
  | .ok metadata =>
    loop (router.matchRuleBody actionSniff)
      (fun state => { metadata := state.1, connection := state.2 }) 0 router.rules
      (metadata, connection)

end Match
end Router
end AmneziaBox.Source.Route
