import AmneziaBox.Source.DNS.RuleAction

/-!
# Rules of the connection router

The actions of `route/rule/rule_action.go` that a route rule may have, the metadata
they write (`adapter/inbound.go`), and `rule_item_preferred_by.go` with the one
outbound, of `protocol/bridge`, that answers it by the `PreMatch` flag.

Sniffers and outbounds are parameters. `M.IsDomainName` is outside the repository.
-/
namespace AmneziaBox.Source.Route
open Adapter Rule

inductive NetworkStrategy where
  | default | fallback | hybrid
  deriving DecidableEq, Repr

inductive InterfaceType where
  | wifi | cellular | ethernet | other
  deriving DecidableEq, Repr

/-- `tlsspoof.Method`. -/
inductive SpoofMethod where
  | wrongSequence | wrongChecksum | wrongAcknowledgment | wrongMD5Sig | wrongTimestamp
  deriving DecidableEq, Repr

/-- The options for the outbound that `route-options` and the metadata share. -/
structure DialOptions where
  networkStrategy : Option NetworkStrategy := none
  networkType : List InterfaceType := []
  fallbackNetworkType : List InterfaceType := []
  fallbackDelay : Int := 0
  udpDisableDomainUnmapping : Bool := false
  udpConnect : Bool := false
  udpTimeout : Int := 0
  tlsFragment : Bool := false
  tlsFragmentFallbackDelay : Int := 0
  tlsRecordFragment : Bool := false
  tlsSpoof : String := ""
  tlsSpoofMethod : SpoofMethod := .wrongSequence
  deriving DecidableEq, Repr

def noAddress : Socksaddr := ⟨.invalid, 0, ""⟩

/-- An error of one sniffer. -/
inductive SniffFailure where
  | needMoreData
  | other (text : String)
  deriving DecidableEq, Repr

/-- The metadata of a connection. `sniffError` lists the errors that `E.Errors` joined
and is empty for nil. -/
structure RouteMetadata extends InboundContext where
  fakeIP : Bool := false
  originDestination : Socksaddr := noAddress
  routeOriginalDestination : Socksaddr := noAddress
  snifferNames : List String := []
  sniffError : List SniffFailure := []
  dial : DialOptions := {}

structure RuleActionRouteOptions extends DialOptions where
  overrideAddress : Socksaddr := noAddress
  overridePort : BitVec 16 := 0
  deriving DecidableEq, Repr

/-- A packet sniffer writes what it finds into the metadata. -/
abbrev PacketSniffer := RouteMetadata → List (BitVec 8) → RouteMetadata × Option SniffFailure

structure RuleActionSniff where
  snifferNames : List String := []
  /-- How many stream sniffers the action has; `actionSniff` runs them. -/
  streamSniffers : Nat := 0
  packetSniffers : List PacketSniffer := []
  timeout : Int := 0
  overrideDestination : Bool := false

inductive RejectedError where
  | reset | drop
  deriving DecidableEq, Repr

structure RuleActionReject where
  method : DNS.RejectMethod := .default
  noDrop : Bool := false
  deriving DecidableEq, Repr

/-- `RuleActionReject.Error`. The counter of the last thirty seconds has more than
fifty entries when `flooded`. -/
def RuleActionReject.error (action : RuleActionReject) (flooded : Bool) : Option RejectedError :=
  match action.method with
  | .default => if action.noDrop then some .reset else if flooded then some .drop else some .reset
  | .drop => some .drop
  | .reply => none

structure RuleActionResolve where
  server : String := ""
  timeout : Int := 0
  strategy : DNS.DomainStrategy := .asIS
  disableCache : Bool := false
  disableOptimisticCache : Bool := false
  rewriteTTL : Option (BitVec 32) := none
  clientSubnet : Option DNS.Prefix := none
  deriving DecidableEq, Repr

/-- What `NewRuleAction` builds. -/
inductive RuleAction where
  | route (outbound : String) (options : RuleActionRouteOptions)
  | routeOptions (options : RuleActionRouteOptions)
  | bypass (outbound : String) (options : RuleActionRouteOptions)
  | reject (action : RuleActionReject)
  | hijackDNS
  | sniff (action : RuleActionSniff)
  | resolve (action : RuleActionResolve)

/-- `adapter.Rule`: a route rule with its action. -/
structure ConnectionRule where
  tree : RouteRule
  action : RuleAction

/-! ## `preferred_by` -/

/-- `adapter.OutboundWithPreferredRoutes`. -/
structure PreferredRoutes where
  preferredDomain : MatchInput → String → Bool
  preferredAddress : MatchInput → Addr → Bool

/-- `PreferredByItem.Match`. -/
def preferredByItem (outbounds : List PreferredRoutes) : RuleItem := fun input =>
  let domainHost := if input.domain ≠ "" then input.domain else input.destination.fqdn
  (domainHost ≠ "" && outbounds.any fun outbound => outbound.preferredDomain input domainHost) ||
  (input.destination.isIP &&
    outbounds.any fun outbound => outbound.preferredAddress input input.destination.addr) ||
  input.destinationAddresses.any fun address =>
    outbounds.any fun outbound => outbound.preferredAddress input address

/-- The bridge outbound takes addresses in pre-match only. -/
def bridgePreferredRoutes (isLocalDestination : Addr → Bool) : PreferredRoutes where
  preferredDomain _ _ := false
  preferredAddress input address := input.preMatch && !isLocalDestination address

end AmneziaBox.Source.Route
