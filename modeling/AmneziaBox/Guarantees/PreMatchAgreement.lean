import AmneziaBox.Source.Route.Router

/-!
# Pre-matching and routing select the same rule

`PreMatch` decides about a packet before a connection exists, and `matchRule` about
the connection. Where `PreMatch` decides without a sniff action on its way,
`matchRule` on the same metadata should come to the same rule, or to the default,
with the same destination and destination addresses.

It does not after an address override: `matchRule` drops the addresses that were
resolved for the old destination and `PreMatch` keeps them, so that a later rule on
the destination address is tested against other addresses. Rules that read the
`PreMatch` flag apart, this is the only difference.
-/
namespace AmneziaBox.Guarantees.PreMatchAgreement
open Source.Adapter Source.Rule Source.Route Source.Route.Router Library

/-- The condition on the way of `PreMatch` through the rules. -/
def OnPreMatchWay (router : Router) (condition : ConnectionRule → RouteMetadata → Prop)
    (metadata : RouteMetadata) (firstPacket : List (BitVec 8)) : Prop :=
  match router.prepareMatchMetadata (withPreMatch metadata) with
  | .error _ => True
  | .ok prepared =>
    OnTheWay (router.preMatchRule metadata.destination firstPacket) condition 0 router.rules
      prepared

/-- No matching sniff action. -/
def Unsniffed (rule : ConnectionRule) (metadata : RouteMetadata) : Prop :=
  (matchOn rule metadata).1 = true → ∀ action, rule.action ≠ .sniff action

/-- The rule does not depend on the `PreMatch` flag, and it overrides no address of a
connection that has destination addresses. -/
structure Steady (router : Router) (rule : ConnectionRule) (metadata : RouteMetadata) : Prop where
  blind : ∀ flag, (matchOn rule { metadata with preMatch := flag }).1 = (matchOn rule metadata).1
  unresolved : (matchOn rule metadata).1 = true → ∀ options,
    rule.action.routeOptions? = some options → router.isValid options.overrideAddress = true →
      metadata.destinationAddresses = []

/-- Why the flag is part of the condition: a bridge takes packets only, so a rule that
prefers bridges is never chosen for a connection. -/
theorem bridges_not_preferred (isLocalDestination : List (Addr → Bool)) {input : MatchInput}
    (routed : input.preMatch = false) :
    preferredByItem (isLocalDestination.map bridgePreferredRoutes) input = false := by
  simp [preferredByItem, bridgePreferredRoutes, routed]

/-- `matchRule` selected the rule and has the destination that `PreMatch` has. -/
structure Agrees {κ : Type} (selected : Option Nat) (metadata : RouteMetadata)
    (run : MatchRun κ) : Prop where
  succeeded : run.fatalErr = none
  selected : run.selected = selected
  destination : run.metadata.destination = metadata.destination
  destinationAddresses : run.metadata.destinationAddresses = metadata.destinationAddresses

/-! ## What both loops keep in common -/

/-- A context without its rule cache and without the `PreMatch` flag. -/
def plain (context : InboundContext) : InboundContext :=
  { context.resetRuleCache with preMatch := false }

def Alike (metadata other : RouteMetadata) : Prop :=
  plain metadata.toInboundContext = plain other.toInboundContext

variable {metadata other : RouteMetadata}

theorem Alike.destination (alike : Alike metadata other) :
    other.destination = metadata.destination :=
  (congrArg (fun context => context.destination) alike).symm

theorem Alike.destinationAddresses (alike : Alike metadata other) :
    other.destinationAddresses = metadata.destinationAddresses :=
  (congrArg (fun context => context.destinationAddresses) alike).symm

theorem resetRuleCache_of_plain {context other : InboundContext}
    (same : plain context = plain other) :
    other.resetRuleCache = { context.resetRuleCache with preMatch := other.preMatch } := by
  have restored := congrArg (fun context => { context with preMatch := other.preMatch }) same
  exact restored.symm

theorem matchOn_context (rule : ConnectionRule) (metadata : RouteMetadata) :
    Alike (matchOn rule metadata).2 metadata := by
  have settles := RuleTree.matchOn_settles
    (fun (rule : DefaultRule) _ => AbstractDefaultRule.matchOn_settles RuleSetItem.answers rule)
    rule.tree metadata.toInboundContext.resetRuleCache rfl
  obtain ⟨waiting, result, -⟩ := settles
  have context : (matchOn rule metadata).2.toInboundContext =
      metadata.toInboundContext.resetRuleCache.withDeferred (deferMask waiting) :=
    congrArg Prod.snd result
  unfold Alike
  rw [context]
  rfl

variable {router : Router}

theorem Alike.matchOn {rule : ConnectionRule} (alike : Alike metadata other)
    (steady : Steady router rule metadata) :
    (Router.matchOn rule other).1 = (Router.matchOn rule metadata).1 := by
  rw [← steady.blind other.preMatch]
  unfold Router.matchOn
  rw [resetRuleCache_of_plain alike]
  rfl

/-- The destination after `applyRouteOptionsOverride`. -/
def overridden (router : Router) (options : RuleActionRouteOptions) (destination : Socksaddr) :
    Socksaddr :=
  let address := if router.isValid options.overrideAddress then options.overrideAddress
    else destination
  ⟨address.addr, if options.overridePort ≠ 0 then options.overridePort else destination.port,
    address.fqdn⟩

theorem applyRouteOptionsOverride_context (router : Router) (options : RuleActionRouteOptions)
    (metadata : RouteMetadata) :
    (router.applyRouteOptionsOverride options metadata).toInboundContext =
      { metadata.toInboundContext with
        destination := overridden router options metadata.destination } := by
  unfold applyRouteOptionsOverride overridden
  split <;> split <;> split <;> rfl

theorem applyRouteOptions_context (router : Router) (options : RuleActionRouteOptions)
    (metadata : RouteMetadata) :
    (router.applyRouteOptions options metadata).toInboundContext =
      { metadata.toInboundContext with
        destination := overridden router options metadata.destination
        destinationAddresses :=
          if router.isValid options.overrideAddress then [] else metadata.destinationAddresses } := by
  unfold applyRouteOptions
  rw [applyRouteOptionsOverride_context]
  split <;> split <;> rfl

section
variable (alike : Alike metadata other)
include alike

/-- An override is the same in both loops when there are no addresses to drop. -/
theorem Alike.override {options : RuleActionRouteOptions}
    (unresolved : router.isValid options.overrideAddress = true → metadata.destinationAddresses = []) :
    Alike (router.applyRouteOptionsOverride options metadata)
      (router.applyRouteOptions options other) := by
  have kept : (if router.isValid options.overrideAddress then []
      else other.destinationAddresses) = metadata.destinationAddresses := by
    rw [alike.destinationAddresses]
    split
    · rename_i overrides
      exact (unresolved overrides).symm
    · rfl
  unfold Alike
  rw [applyRouteOptionsOverride_context, applyRouteOptions_context, kept, alike.destination]
  exact congrArg (fun context => { context with
    destination := overridden router options metadata.destination
    destinationAddresses := metadata.destinationAddresses }) alike

theorem Alike.lookupInput :
    lookupInput other = lookupInput metadata :=
  (congrArg (fun context => Router.lookupInput { metadata with toInboundContext := context })
    alike).symm

theorem Alike.setDestinationAddresses (addresses : List Addr) :
    Alike (Router.setDestinationAddresses metadata addresses)
      (Router.setDestinationAddresses other addresses) := by
  exact congrArg (fun context : InboundContext =>
    { context with destinationAddresses := addresses }) alike

theorem Alike.actionResolve {action : RuleActionResolve} {resolved : RouteMetadata}
    (done : router.actionResolve action metadata = .ok resolved) :
    ∃ same, router.actionResolve action other = .ok same ∧ Alike resolved same := by
  unfold Router.actionResolve at done ⊢
  rw [alike.destination, alike.lookupInput]
  by_cases domain : router.isDomain metadata.destination = true
  · rw [if_pos domain] at done ⊢
    cases answer : router.resolveDomain action (Router.lookupInput metadata)
        metadata.destination.fqdn with
    | error err =>
      rw [answer] at done
      cases done
    | ok addresses =>
      rw [answer] at done
      cases done
      exact ⟨_, rfl, alike.setDestinationAddresses addresses⟩
  · rw [if_neg domain] at done ⊢
    cases done
    exact ⟨other, rfl, alike⟩

end

/-! ## One rule in both loops -/

section Bodies
variable {κ : Type}
  {actionSniff : RuleActionSniff → RouteMetadata → κ → (RouteMetadata × κ) × Option String}
  {packetDestination : Socksaddr} {firstPacket : List (BitVec 8)}

/-- A decision of `PreMatch` is that of `matchRule`. -/
def Good (run : PreMatchRun) (other : MatchRun κ) : Prop :=
  ∀ selected, run.decision = some selected → Agrees selected run.metadata other

theorem good_of_undecided {result : PreMatchResult} {metadata : RouteMetadata}
    (other : MatchRun κ) : Good ⟨result, none, metadata⟩ other := nofun

theorem good_of_selected {result : PreMatchResult} {metadata same : RouteMetadata}
    {index : Option Nat} {connection : κ} (alike : Alike metadata same) :
    Good ⟨result, some index, metadata⟩ ⟨index, none, same, connection⟩ := by
  intro selected decided
  cases decided
  exact ⟨rfl, rfl, alike.destination, alike.destinationAddresses⟩

theorem body_follows (index : Nat) (rule : ConnectionRule) (metadata : RouteMetadata)
    (state : RouteMetadata × κ) (alike : Alike metadata state.1)
    (way : Unsniffed rule metadata ∧ Steady router rule metadata) :
    (router.preMatchRule packetDestination firstPacket index rule metadata).Follows
      (fun metadata state => Alike metadata state.1) Good
      (router.matchRuleBody actionSniff index rule state) := by
  obtain ⟨unsniffed, steady⟩ := way
  have verdict := alike.matchOn steady
  have unresolved := steady.unresolved
  have left := matchOn_context rule metadata
  have right := matchOn_context rule state.1
  have after : Alike (matchOn rule metadata).2 (matchOn rule state.1).2 :=
    left.trans (alike.trans right.symm)
  have addresses := left.destinationAddresses
  unfold Unsniffed at unsniffed
  unfold preMatchRule matchRuleBody
  generalize matchOn rule metadata = first at verdict unsniffed unresolved after addresses ⊢
  generalize matchOn rule state.1 = second at verdict after ⊢
  obtain ⟨matched, metadata'⟩ := first
  obtain ⟨matched', other⟩ := second
  dsimp only at verdict unsniffed unresolved after addresses ⊢
  subst verdict
  cases matched' with
  | false => exact after
  | true =>
    rw [addresses] at unresolved
    rw [if_pos rfl, if_pos rfl]
    cases acts : rule.action with
    | sniff action => exact (unsniffed rfl action acts).elim
    | routeOptions options =>
      exact after.override (unresolved rfl options (by rw [acts]; rfl))
    | route outbound options =>
      exact good_of_selected (after.override (unresolved rfl options (by rw [acts]; rfl)))
    | bypass outbound options =>
      by_cases named : outbound = ""
      · simp only [matchAction, named, if_true]
        split <;> exact good_of_undecided
      · have applied : rule.action.routeOptions? = some options := by
          rw [acts]
          exact if_pos named
        simp only [matchAction, RuleAction.routeOptions?, named, if_false, ne_eq,
          not_false_eq_true, if_true]
        exact good_of_selected (after.override (unresolved rfl options applied))
    | reject | hijackDNS => exact good_of_selected after
    | resolve action =>
      simp only [matchAction, RuleAction.routeOptions?]
      cases resolves : router.actionResolve action metadata' with
      | ok resolved =>
        obtain ⟨same, done, still⟩ := after.actionResolve resolves
        rw [done]
        exact still
      | error err =>
        cases router.actionResolve action other with
        | ok same => exact good_of_undecided
        | error err' => exact good_of_undecided _

end Bodies

/-! ## The metadata both loops start from -/

theorem searchNeighbor_withPreMatch (router : Router) (metadata : RouteMetadata) :
    router.searchNeighbor (withPreMatch metadata) =
      withPreMatch (router.searchNeighbor metadata) := by
  unfold searchNeighbor withPreMatch
  split <;> rfl

theorem searchDomain_withPreMatch (router : Router) (metadata : RouteMetadata) :
    router.searchDomain (withPreMatch metadata) =
      (router.searchDomain metadata).map withPreMatch := by
  unfold searchDomain withPreMatch
  dsimp only
  split
  · split
    · rfl
    · split <;> rfl
  · split
    · split <;> rfl
    · rfl

theorem setIPVersion_withPreMatch (metadata : RouteMetadata) :
    setIPVersion (withPreMatch metadata) = withPreMatch (setIPVersion metadata) := by
  unfold setIPVersion withPreMatch
  dsimp only
  split <;> rfl

theorem prepareMatchMetadata_withPreMatch (router : Router) (metadata : RouteMetadata) :
    router.prepareMatchMetadata (withPreMatch metadata) =
      (router.prepareMatchMetadata metadata).map withPreMatch := by
  have searched : router.searchProcessInfo (withPreMatch metadata) =
      withPreMatch (router.searchProcessInfo metadata) := rfl
  unfold prepareMatchMetadata
  rw [searched, searchNeighbor_withPreMatch, searchDomain_withPreMatch]
  cases router.searchDomain (router.searchNeighbor (router.searchProcessInfo metadata)) with
  | error err => rfl
  | ok prepared => exact congrArg Except.ok (setIPVersion_withPreMatch prepared)

/-! ## The two walks -/

/-- Rules without a sniff action. -/
theorem unsniffed_of_forall {firstPacket : List (BitVec 8)}
    (free : ∀ rule ∈ router.rules, ∀ action, rule.action ≠ .sniff action) :
    OnPreMatchWay router Unsniffed metadata firstPacket := by
  unfold OnPreMatchWay
  split
  · trivial
  · apply OnTheWay.of_forall
    intro rule member _ _
    exact free rule member

/-- Where `PreMatch` decides without a sniff action, `matchRule` selects the same rule
with the same destination and addresses, as long as no rule on the way depends on the
`PreMatch` flag or overrides the address of a destination that was resolved. -/
theorem preMatch_agrees {κ : Type} (router : Router)
    (actionSniff : RuleActionSniff → RouteMetadata → κ → (RouteMetadata × κ) × Option String)
    (metadata : RouteMetadata) (firstPacket : List (BitVec 8)) (connection : κ)
    (selected : Option Nat)
    (decided : (router.preMatch metadata firstPacket).decision = some selected)
    (unsniffed : OnPreMatchWay router Unsniffed metadata firstPacket)
    (steady : OnPreMatchWay router (Steady router) metadata firstPacket) :
    Agrees selected (router.preMatch metadata firstPacket).metadata
      (router.matchRule actionSniff metadata connection) := by
  unfold OnPreMatchWay at unsniffed steady
  unfold preMatch at decided ⊢
  unfold matchRule
  rw [prepareMatchMetadata_withPreMatch] at unsniffed steady decided ⊢
  cases prepared : router.prepareMatchMetadata metadata with
  | error err =>
    rw [prepared] at decided
    cases decided
  | ok start =>
    rw [prepared] at unsniffed steady decided
    exact loop_follows body_follows (fun metadata state alike => good_of_selected alike)
      (show Alike (withPreMatch start) start from rfl) (unsniffed.and steady) selected decided

/-! ## A destination that was resolved and then overridden -/

/-- `10.0.0.0/8`. -/
def office : Addr → Bool
  | .ipv4 value => value >>> 24 = 10
  | _ => false

def udpRule (action : RuleAction) : ConnectionRule :=
  ⟨.default { items := [fun input => input.network = "udp"] }, action⟩

def officeRule : ConnectionRule :=
  ⟨.default { destinationIPCIDRItems := [.ipCIDR office] }, .route "office" {}⟩

def resolveRule : ConnectionRule := udpRule (.resolve {})

def overrideRule : ConnectionRule :=
  udpRule (.routeOptions { overrideAddress := ⟨.invalid, 0, "b.org"⟩ })

/-- Every domain is in the office network. -/
def officeRouter (rules : List ConnectionRule) : Router where
  rules := rules
  isDomainName name := name ≠ ""
  lookup _ _ _ _ := .ok [.ipv4 0x0a000001]
  defaultOutbound := { tag := "direct" }

def packet : RouteMetadata :=
  { network := "udp", destination := ⟨.invalid, 443, "a.org"⟩ }

def noSniff (_ : RuleActionSniff) (metadata : RouteMetadata) (connection : Unit) :
    (RouteMetadata × Unit) × Option String :=
  ((metadata, connection), none)

/-- The addresses of the old destination send the packet to the office. The connection
has lost them at the last rule and goes to the default outbound. -/
theorem overridden_destination_misrouted :
    let router := officeRouter [resolveRule, overrideRule, officeRule]
    OnPreMatchWay router Unsniffed packet [] ∧
      (router.preMatch packet []).decision = some (some 2) ∧
      (router.matchRule noSniff packet ()).fatalErr = none ∧
      (router.matchRule noSniff packet ()).selected = none :=
  ⟨unsniffed_of_forall (by simp [officeRouter, resolveRule, overrideRule, officeRule, udpRule]),
    by decide +kernel, by decide +kernel, by decide +kernel⟩

/-- With the rules the other way round both find the addresses of the new destination. -/
theorem overridden_before_resolved :
    let router := officeRouter [overrideRule, resolveRule, officeRule]
    Agrees (some 2) (router.preMatch packet []).metadata (router.matchRule noSniff packet ()) := by
  refine preMatch_agrees _ noSniff packet [] () (some 2) (by decide +kernel)
    (unsniffed_of_forall ?_) ?_
  · simp [officeRouter, resolveRule, overrideRule, officeRule, udpRule]
  · refine ⟨⟨fun flag => by cases flag <;> rfl, fun _ _ _ _ => rfl⟩,
      ⟨fun flag => by cases flag <;> rfl, fun _ _ applied => ?_⟩,
      ⟨fun flag => by cases flag <;> rfl, fun _ _ applied overrides => ?_⟩, trivial⟩
    · cases applied
    · cases applied
      cases overrides

end AmneziaBox.Guarantees.PreMatchAgreement
