import AmneziaBox.Source.DNS.RuleAction

/-!
# The legacy exchange

`dns/router.go`: `matchDNS`, `addressLimitResponseCheck`, `exchangeLegacy` and the
legacy loop of `Lookup`. The two loops are one definition here; they differ in
whether a fakeip server may answer, in what a `reject` or `predefined` action
returns, and in which errors count as a refused response. The client is a
parameter. A run also records the queries it sent.
-/
namespace AmneziaBox.Source.DNS
open Adapter Rule

/-- The option updates of a `route` or `route-options` action in `matchDNS`. -/
def applyLegacyOptions (action : RouteOptions) (options : DNSQueryOptions) : DNSQueryOptions :=
  let options :=
    if action.strategy ≠ .asIS then { options with strategy := action.strategy } else options
  applyCommonOptions action options

theorem applyLegacyOptions_eq (action : RouteOptions) (options : DNSQueryOptions) :
    applyLegacyOptions action options = { applyCommonOptions action options with
      strategy := if action.strategy = .asIS then options.strategy else action.strategy } := by
  unfold applyLegacyOptions applyCommonOptions
  by_cases unset : action.strategy = .asIS <;> simp
  all_goals repeat' split
  all_goals rfl

/-- What `matchDNS` returns: the server, and the rule with its index unless the
default server was chosen. -/
structure DNSMatch where
  transport : Option DNSTransport
  rule : Option (Nat × DNSRule)

/-- The metadata `matchDNS` hands to a rule. -/
def cleared (metadata : InboundContext) : InboundContext :=
  { metadata.resetRuleCache with destinationAddressMatchFromResponse := false }

/-- The loop of `matchDNS` over the rules that start at `index`. -/
def matchDNSFrom (router : Router) (allowFakeIP isAddressQuery : Bool) :
    List DNSRule → Nat → InboundContext → DNSQueryOptions →
      DNSMatch × DNSQueryOptions × InboundContext
  | [], _, metadata, options => (⟨some router.defaultTransport, none⟩, options, metadata)
  | rule :: rest, index, metadata, options =>
    if rule.tree.withAddressLimit && !isAddressQuery then
      matchDNSFrom router allowFakeIP isAddressQuery rest (index + 1) metadata options
    else
      let (matched, metadata) := rule.tree.legacyPreMatch (cleared metadata)
      if matched then
        match rule.action with
        | .route server _ action =>
          match router.transport server with
          | none => matchDNSFrom router allowFakeIP isAddressQuery rest (index + 1) metadata options
          | some transport =>
            if transport.isFakeIP && !allowFakeIP then
              matchDNSFrom router allowFakeIP isAddressQuery rest (index + 1) metadata options
            else
              let options := applyLegacyOptions action options
              let options :=
                if transport.isFakeIP then { options with disableCache := true } else options
              (⟨some transport, some (index, rule)⟩, options, metadata)
        | .routeOptions action =>
          matchDNSFrom router allowFakeIP isAddressQuery rest (index + 1) metadata
            (applyLegacyOptions action options)
        | .reject _ => (⟨none, some (index, rule)⟩, options, metadata)
        | .predefined _ => (⟨none, some (index, rule)⟩, options, metadata)
        | _ => matchDNSFrom router allowFakeIP isAddressQuery rest (index + 1) metadata options
      else matchDNSFrom router allowFakeIP isAddressQuery rest (index + 1) metadata options

/-- `matchDNS`; `start` is `ruleIndex + 1`, zero on the first call. -/
def matchDNS (router : Router) (rules : List DNSRule) (allowFakeIP : Bool) (start : Nat)
    (isAddressQuery : Bool) (metadata : InboundContext) (options : DNSQueryOptions) :
    DNSMatch × DNSQueryOptions × InboundContext :=
  matchDNSFrom router allowFakeIP isAddressQuery (rules.drop start) start metadata options

/-- `addressLimitResponseCheck`; the check works on a copy of the metadata. -/
def addressLimitResponseCheck (rule : Option (Nat × DNSRule)) (metadata : InboundContext) :
    Option (Option Msg → Bool) :=
  match rule with
  | none => none
  | some (_, rule) =>
    if rule.tree.withAddressLimit then some (rule.tree.matchAddressLimit metadata) else none

/-- A query that was sent: for which rule, to which server, with which options. -/
structure LegacySend where
  rule : Option Nat
  transport : Option DNSTransport
  options : DNSQueryOptions
  deriving DecidableEq

structure LegacyRun (ρ : Type) where
  result : ρ
  sends : List LegacySend

/-- What the two legacy loops differ in. -/
structure LegacyCaller (ρ : Type) where
  allowFakeIP : Bool
  isAddressQuery : Bool
  /-- A result without a query, for `reject` and `predefined`. -/
  onAction : DNSRuleAction → Option ρ
  /-- The client: its result, and whether that counts as a refused response. -/
  send : Option DNSTransport → DNSQueryOptions → Option (Option Msg → Bool) → ρ × Bool

/-- The loop of `exchangeLegacy` and `Lookup`. Every round starts again from the
caller's options. `none` means that the fuel ran out. -/
def legacyLoop {ρ : Type} (router : Router) (rules : List DNSRule) (caller : LegacyCaller ρ)
    (options : DNSQueryOptions) : Nat → Nat → InboundContext → Option (LegacyRun ρ)
  | 0, _, _ => none
  | fuel + 1, start, metadata =>
    let (found, dnsOptions, metadata) :=
      matchDNS router rules caller.allowFakeIP start caller.isAddressQuery metadata options
    match found.rule.bind fun (_, rule) => caller.onAction rule.action with
    | some result => some ⟨result, []⟩
    | none =>
      let responseCheck := addressLimitResponseCheck found.rule metadata
      let dnsOptions := finalizeExchangeOptions router dnsOptions
      let (result, rejected) := caller.send found.transport dnsOptions responseCheck
      let sent : LegacySend := ⟨found.rule.map Prod.fst, found.transport, dnsOptions⟩
      if responseCheck.isSome && rejected then
        -- a refused response comes from a rule; without one the check is nil
        let next := (found.rule.map fun (index, _) => index + 1).getD 0
        (legacyLoop router rules caller options fuel next metadata).map fun run =>
          ⟨run.result, sent :: run.sends⟩
      else some ⟨result, [sent]⟩

/-- One round for each rule and one for the default server. -/
def legacyFuel (rules : List DNSRule) : Nat := rules.length + 1

inductive DNSError where
  | responseRejected | responseRejectedCached | drop | other (text : String)
  deriving DecidableEq, Repr

/-- `exchangeWithRulesResult`, and the three results of `exchangeLegacy`. -/
structure ExchangeResult where
  response : Option Msg := none
  transport : Option DNSTransport := none
  err : Option DNSError := none
  deriving DecidableEq

/-- `DNSClient.Exchange`: at most one of response and error. -/
abbrev Exchanger :=
  Option DNSTransport → DNSQueryOptions → Option (Option Msg → Bool) → Except DNSError Msg

def isAddressQuery (message : Msg) : Bool :=
  message.question.any fun question =>
    question.qtype == 1 || question.qtype == 28 || question.qtype == 65

def ExchangeResult.ofClient (transport : Option DNSTransport) : Except DNSError Msg → ExchangeResult
  | .ok response => { response := some response, transport := transport }
  | .error err => { transport := transport, err := some err }

def exchangeCaller (client : Exchanger) (message : Msg) : LegacyCaller ExchangeResult where
  allowFakeIP := true
  isAddressQuery := isAddressQuery message
  onAction
    | .reject .default => some { response := some (dnsRefusedResponse message) }
    | .reject .drop => some { err := some .drop }
    | .predefined action => some { response := some (action.toResponse message) }
    | _ => none
  send transport options check :=
    let answer := client transport options check
    (.ofClient transport answer,
      match answer with
      | .error .responseRejected => true
      | .error .responseRejectedCached => true
      | _ => false)

def exchangeLegacy (router : Router) (client : Exchanger) (rules : List DNSRule)
    (metadata : InboundContext) (message : Msg) (options : DNSQueryOptions) :
    Option (LegacyRun ExchangeResult) :=
  legacyLoop router rules (exchangeCaller client message) options (legacyFuel rules) 0 metadata

/-- The two results of `Lookup`: addresses or an error. -/
inductive LookupError where
  | rejected | rcode (code : Nat) | client (err : DNSError)
  deriving DecidableEq

def Record.lookupAddresses (record : Record) : List Addr :=
  match record.data with
  | .a addr => [addr]
  | .aaaa addr => [addr]
  | _ => []

/-- The legacy loop of `Lookup`: any error makes it try the next rule as long as the
rule is limited to addresses. -/
def lookupCaller (client : Option DNSTransport → DNSQueryOptions → Option (Option Msg → Bool) →
    Except DNSError (List Addr)) : LegacyCaller (Except LookupError (List Addr)) where
  allowFakeIP := false
  isAddressQuery := true
  onAction
    | .reject _ => some (.error .rejected)
    | .predefined action =>
      some (if action.rcode ≠ rcodeSuccess then .error (.rcode action.rcode)
        else .ok (action.answer.flatMap Record.lookupAddresses))
    | _ => none
  send transport options check :=
    match client transport options check with
    | .ok addresses => (.ok addresses, false)
    | .error err => (.error (.client err), true)

def lookupLegacy (router : Router)
    (client : Option DNSTransport → DNSQueryOptions → Option (Option Msg → Bool) →
      Except DNSError (List Addr))
    (rules : List DNSRule) (metadata : InboundContext) (options : DNSQueryOptions) :
    Option (LegacyRun (Except LookupError (List Addr))) :=
  legacyLoop router rules (lookupCaller client) options (legacyFuel rules) 0 metadata

/-! ## A query, for the examples of the guarantees -/

namespace Example

def question : Msg where
  id := 1
  question := [⟨"example.org.", 1, 1⟩]

def positiveAnswer : Msg := { question with response := true }

def exampleQuery : InboundContext where
  domain := "example.org"
  queryType := 1

/-- `evaluate` on server `a` under the tag `t`. -/
def evaluateRule : DNSRule where
  tree := .default { items := [fun input => input.domain == "example.org"] }
  action := .evaluate "a" "t" false {}

end Example

end AmneziaBox.Source.DNS
