import AmneziaBox.Source.Rule.DNSRule

/-!
# DNS rules with their actions, servers and query options

`adapter/dns.go`, `route/rule/rule_action.go` and the parts of `dns/router.go`
that read an action: `applyDNSRouteOptions`, `resolveDNSRoute` and
`finalizeExchangeOptions`. `DNSQueryOptions.Transport` is not carried: a query
with a fixed transport never reaches the rules.
-/
namespace AmneziaBox.Source.DNS
open Adapter Rule

inductive DomainStrategy where
  | asIS | preferIPv4 | preferIPv6 | ipv4Only | ipv6Only
  deriving DecidableEq, Repr

/-- `netip.Prefix`; the zero prefix is the absent one. -/
structure Prefix where
  addr : Addr
  bits : Nat
  deriving DecidableEq, Repr

structure DNSQueryOptions where
  strategy : DomainStrategy := .asIS
  lookupStrategy : DomainStrategy := .asIS
  disableCache : Bool := false
  disableOptimisticCache : Bool := false
  rewriteTTL : Option (BitVec 32) := none
  timeout : Int := 0
  clientSubnet : Option Prefix := none
  removeClientSubnet : Bool := false
  deriving DecidableEq, Repr

structure DNSTransport where
  tag : String
  isFakeIP : Bool := false
  deriving DecidableEq, Repr

/-- `RuleActionDNSRouteOptions`. -/
structure RouteOptions where
  strategy : DomainStrategy := .asIS
  timeout : Int := 0
  disableCache : Bool := false
  disableOptimisticCache : Bool := false
  rewriteTTL : Option (BitVec 32) := none
  clientSubnet : Option Prefix := none
  removeClientSubnet : Bool := false
  deriving DecidableEq, Repr

inductive RejectMethod where
  | default | drop | reply
  deriving DecidableEq, Repr

/-- `RuleActionPredefined`. -/
structure PredefinedAction where
  rcode : Nat
  answer : List Record := []
  ns : List Record := []
  extra : List Record := []
  deriving DecidableEq, Repr

/-- The actions of a DNS rule; `none` is a rule without action. -/
inductive DNSRuleAction where
  | none
  | route (server : String) (speculative : Bool) (options : RouteOptions)
  | evaluate (server tag : String) (speculative : Bool) (options : RouteOptions)
  | respond
  | routeOptions (options : RouteOptions)
  | reject (method : RejectMethod)
  | predefined (action : PredefinedAction)
  deriving DecidableEq

/-- `adapter.DNSRule`. -/
structure DNSRule where
  tree : DNSRuleTree
  action : DNSRuleAction
  race : Bool := false

/-- `rewriteRecords`: a wildcard owner name is filled in from the question. -/
def rewriteRecords (records : List Record) (question : Question) : List Record :=
  records.map fun record =>
    if record.name.startsWith "*" && question.name.endsWith (record.name.drop 1).toString then
      { record with name := question.name }
    else record

def firstQuestion (message : Msg) : Question := message.question.headD ⟨"", 0, 0⟩

/-- `RuleActionPredefined.Response`. -/
def PredefinedAction.toResponse (action : PredefinedAction) (request : Msg) : Msg where
  id := request.id
  response := true
  authoritative := true
  recursionDesired := true
  recursionAvailable := true
  rcode := action.rcode
  question := request.question
  answer := rewriteRecords action.answer (firstQuestion request)
  ns := rewriteRecords action.ns (firstQuestion request)
  extra := rewriteRecords action.extra (firstQuestion request)

/-- `dnsRefusedResponse`, also spelled out in `exchangeLegacy`. -/
def dnsRefusedResponse (message : Msg) : Msg where
  id := message.id
  response := true
  rcode := rcodeRefused
  question := [firstQuestion message]

/-- What the router is configured with: its servers and the default strategy. -/
structure Router where
  transport : String → Option DNSTransport
  defaultTransport : DNSTransport
  defaultDomainStrategy : DomainStrategy := .asIS

/-- The assignments that `matchDNS` and `applyDNSRouteOptions` have in common. -/
def applyCommonOptions (action : RouteOptions) (options : DNSQueryOptions) : DNSQueryOptions :=
  let options := if action.disableCache then { options with disableCache := true } else options
  let options :=
    match action.rewriteTTL with
    | some ttl => { options with rewriteTTL := some ttl }
    | none => options
  let options := if action.timeout > 0 then { options with timeout := action.timeout } else options
  let options :=
    match action.clientSubnet with
    | some subnet => { options with clientSubnet := some subnet, removeClientSubnet := false }
    | none => options
  if action.removeClientSubnet then
    { options with clientSubnet := none, removeClientSubnet := true }
  else options

section Projections
variable (action : RouteOptions) (options : DNSQueryOptions)

@[simp] theorem applyCommonOptions_lookupStrategy :
    (applyCommonOptions action options).lookupStrategy = options.lookupStrategy := by
  unfold applyCommonOptions
  repeat' split
  all_goals rfl

@[simp] theorem applyCommonOptions_disableOptimisticCache :
    (applyCommonOptions action options).disableOptimisticCache =
      options.disableOptimisticCache := by
  unfold applyCommonOptions
  repeat' split
  all_goals rfl

@[simp] theorem applyCommonOptions_disableCache :
    (applyCommonOptions action options).disableCache =
      (action.disableCache || options.disableCache) := by
  unfold applyCommonOptions
  repeat' split
  all_goals simp_all

@[simp] theorem applyCommonOptions_rewriteTTL :
    (applyCommonOptions action options).rewriteTTL =
      action.rewriteTTL.or options.rewriteTTL := by
  unfold applyCommonOptions
  repeat' split
  all_goals simp_all

@[simp] theorem applyCommonOptions_timeout :
    (applyCommonOptions action options).timeout =
      if action.timeout > 0 then action.timeout else options.timeout := by
  unfold applyCommonOptions
  repeat' split
  all_goals simp_all

@[simp] theorem applyCommonOptions_clientSubnet :
    (applyCommonOptions action options).clientSubnet =
      if action.removeClientSubnet then none
      else action.clientSubnet.or options.clientSubnet := by
  unfold applyCommonOptions
  repeat' split
  all_goals simp_all

@[simp] theorem applyCommonOptions_removeClientSubnet :
    (applyCommonOptions action options).removeClientSubnet =
      (action.removeClientSubnet ||
        (action.clientSubnet.isNone && options.removeClientSubnet)) := by
  unfold applyCommonOptions
  repeat' split
  all_goals simp_all

end Projections

/-- `applyDNSRouteOptions`; the strategy is left alone. -/
def applyDNSRouteOptions (action : RouteOptions) (options : DNSQueryOptions) : DNSQueryOptions :=
  let options := applyCommonOptions action options
  if action.disableOptimisticCache then { options with disableOptimisticCache := true } else options

inductive DNSRouteStatus where
  | missing | skipped | resolved
  deriving DecidableEq, Repr

/-- `resolveDNSRoute`: the server, the status and the options of the query. -/
def resolveDNSRoute (router : Router) (server : String) (action : RouteOptions) (allowFakeIP : Bool)
    (options : DNSQueryOptions) : Option DNSTransport × DNSRouteStatus × DNSQueryOptions :=
  match router.transport server with
  | none => (none, .missing, options)
  | some transport =>
    if transport.isFakeIP && !allowFakeIP then (some transport, .skipped, options)
    else
      let options := applyDNSRouteOptions action options
      let options := if transport.isFakeIP then { options with disableCache := true } else options
      (some transport, .resolved, options)

/-- `finalizeExchangeOptions`. -/
def finalizeExchangeOptions (router : Router) (options : DNSQueryOptions) : DNSQueryOptions :=
  if options.strategy = .asIS then { options with strategy := router.defaultDomainStrategy }
  else options

theorem finalizeExchangeOptions_strategy (router : Router) (options : DNSQueryOptions) :
    (finalizeExchangeOptions router options).strategy =
      if options.strategy = .asIS then router.defaultDomainStrategy else options.strategy := by
  unfold finalizeExchangeOptions
  split <;> rfl

end AmneziaBox.Source.DNS
