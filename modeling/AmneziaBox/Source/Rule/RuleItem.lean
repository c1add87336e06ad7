import AmneziaBox.Library.Verdict
import AmneziaBox.Source.Rule.MatchState

/-!
# Rule items

`route/rule/rule_item_cidr.go` is embedded; every other item is a function of what
an item may read. `ipset.Set.Contains` enters as a function on addresses, the
invalid address included.

Only `IPCIDRItem` reads the rule cache, and only when it tests the destination.
The constructors of the repository keep those items in `destinationIPCIDRItems`;
here they have a type of their own, so no other group can hold one.
-/
namespace AmneziaBox.Source.Rule
open Adapter

abbrev RuleItem := MatchInput → Bool

/-- `IPCIDRItem.Match`. -/
def ipCIDRMatch (ipSet : Addr → Bool) (isSource : Bool) (metadata : InboundContext) : Bool :=
  if isSource || metadata.ipCIDRMatchSource then ipSet metadata.source.addr
  else if metadata.destinationAddressMatchFromResponse then
    match metadata.dnsResponseAddressesForMatch with
    | [] => metadata.ipCIDRAcceptEmpty
    | addresses => addresses.any ipSet
  else if metadata.destination.isIP then ipSet metadata.destination.addr
  else
    match metadata.destinationAddresses with
    | [] => metadata.ipCIDRAcceptEmpty
    | addresses => addresses.any ipSet

/-- `source_ip_cidr`: an `IPCIDRItem` with `isSource` never reaches the cache. -/
def sourceIPCIDRItem (ipSet : Addr → Bool) : RuleItem := fun input =>
  ipCIDRMatch ipSet true { toMatchInput := input }

/-- The items of `destinationIPCIDRItems`. -/
inductive DestinationIPItem where
  | ipCIDR (ipSet : Addr → Bool)
  | predicate (holds : MatchInput → Bool)

def DestinationIPItem.matchOn : DestinationIPItem → InboundContext → Bool
  | .ipCIDR ipSet, metadata => ipCIDRMatch ipSet false metadata
  | .predicate holds, metadata => holds metadata.toMatchInput

def matchAnyItem (items : List RuleItem) (metadata : InboundContext) : Bool :=
  items.any fun item => item metadata.toMatchInput

/-- `matchAnyItem` on the destination IP items. -/
def matchAnyIPItem (items : List DestinationIPItem) (metadata : InboundContext) : Bool :=
  items.any fun item => item.matchOn metadata

/-- The item reads the query and not the DNS responses. -/
def RuleItem.QueryOnly (item : RuleItem) : Prop :=
  ∀ input other : MatchInput, input.toQuery = other.toQuery → item input = item other

theorem queryOnly_of_query (holds : Query → Bool) :
    RuleItem.QueryOnly fun input => holds input.toQuery := by
  intro input other same
  simp [same]

theorem sourceIPCIDRItem_queryOnly (ipSet : Addr → Bool) :
    (sourceIPCIDRItem ipSet).QueryOnly := by
  intro input other same
  simp [sourceIPCIDRItem, ipCIDRMatch, same]

@[simp] theorem matchAnyItem_append (items others : List RuleItem) (metadata : InboundContext) :
    matchAnyItem (items ++ others) metadata =
      (matchAnyItem items metadata || matchAnyItem others metadata) := by
  simp [matchAnyItem]

end AmneziaBox.Source.Rule
