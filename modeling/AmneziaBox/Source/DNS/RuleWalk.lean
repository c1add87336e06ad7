import AmneziaBox.Source.DNS.WalkState

/-!
# The DNS rule walk

`dns/router.go`: `walkDNSRules`, `sweepArmedDNSRules`, `resumeExchangeWithRules`,
`finishPendingExchange` and `exchangeWithRules`. The walk stops at a rule that has
to wait and is entered again at the same rule. A race rule does not wait: it is
armed, and judged by a sweep once its futures are resolved. Logging is left out, and
so is the cancellation of futures, which happens when the walk is over.
-/
namespace AmneziaBox.Source.DNS
open Adapter Rule

/-- `dnsRespondMissingResponseMessage`. -/
def dnsRespondMissingResponseMessage : String :=
  "respond action requires an evaluated response from a preceding evaluate action"

/-- The result of a `respond` action. -/
def respondResult (response : Option Msg) (transport : Option DNSTransport) :
    ExchangeWithRulesResult :=
  match response with
  | none => { err := some (.other dnsRespondMissingResponseMessage) }
  | some response => { response := some response, transport := transport }

/-- The result of a `reject` action; `reply` is no case of the source's switch. -/
def rejectResult (message : Msg) : RejectMethod → Option ExchangeWithRulesResult
  | .default =>
    some { response := some (dnsRefusedResponse message), rejectAction := some .default }
  | .drop => some { err := some .drop, rejectAction := some .drop }
  | .reply => none

/-- How a sweep commits: with a result, or with a query still to be sent. -/
inductive Commit where
  | result (result : ExchangeWithRulesResult)
  | pending (exchange : PendingExchange)

/-- What `walkDNSRules` returns. -/
inductive WalkOutcome where
  | result (result : ExchangeWithRulesResult)
  | suspended (suspension : Suspension)

/-- The rest of the loop body: go on with the next rule, or return. -/
inductive StepOutcome where
  | next
  | stop (outcome : WalkOutcome)

namespace Walk

/-- The metadata handed to `Match`. -/
def matchMetadata (state : Walk) (response : Option Msg) : InboundContext :=
  { state.metadata.resetRuleCache with
    dnsResponse := response
    namedDNSResponses := state.namedResponses
    destinationAddressMatchFromResponse := false }

/-- What `Match` is called on, and what it answers. -/
def judgement (index : Nat) (rule : DNSRule) (options : DNSQueryOptions) (response : Option Msg)
    (state : Walk) : Judgement where
  index := index
  rule := rule
  options := options
  named := state.namedResponses
  namedFutures := state.namedFutures
  futures := state.futures
  matched := (rule.tree.matchOn (state.matchMetadata response)).1

/-- The call of `Match` in the walk and in a sweep. -/
def judge (index : Nat) (rule : DNSRule) (options : DNSQueryOptions) (response : Option Msg)
    (state : Walk) : Bool × Walk :=
  let judgement := state.judgement index rule options response
  let metadata := (rule.tree.matchOn (state.matchMetadata response)).2
  (judgement.matched, { state with metadata := metadata }.record (.judged judgement))

/-- The futures that an armed rule is bound to. -/
def boundTo (state : Walk) (armed : ArmedRule) : List Nat :=
  armed.rule.tree.matchResponseTags.filterMap state.namedFutures ++ armed.anonymousFuture.toList

def arm (state : Walk) (armed : ArmedRule) : Walk :=
  { state with armedRules := state.armedRules ++ [armed] }.record
    (.armed armed.ruleIndex (state.boundTo armed))

end Walk

namespace Walker
variable (walker : Walker)

/-! ## Sweeping the armed rules -/

/-- Whether all futures of an armed rule are resolved; the first open one ends the check. -/
def allResolved : List Nat → Walk → Bool × Walk
  | [], state => (true, state)
  | future :: rest, state =>
    let (resolved, state) := walker.resolved future state
    if resolved then allResolved rest state else (false, state)

/-- The response that an armed rule sees as `DNSResponse`. -/
def armedResponse (armed : ArmedRule) (state : Walk) : Option Msg × Walk :=
  if armed.bindsAnonymous then
    match armed.anonymousFuture with
    | some future => walker.view future state
    | none => (none, state)
  else walker.anonymousResponse state

/-- The `respond` action of an armed rule. -/
def respondArmed (armed : ArmedRule) (state : Walk) : ExchangeWithRulesResult × Walk :=
  let tag := armed.rule.tree.matchResponseTag
  if tag ≠ "" then (respondResult (state.namedResponses tag) (state.namedTransports tag), state)
  else
    match armed.anonymousFuture, state.anonymousFuture with
    | some future, _ =>
      let (response, state) := walker.view future state
      (respondResult response (state.transportOf future), state)
    | none, some future =>
      let (response, state) := walker.view future state
      (respondResult response (state.transportOf future), state)
    | none, none => (respondResult none none, state)

/-- The action of an armed rule that matched; `none` when the sweep goes on. -/
def commitArmed (armed : ArmedRule) (state : Walk) : Option Commit × Walk :=
  match armed.rule.action with
  | .respond =>
    let (result, state) := walker.respondArmed armed state
    (some (.result result), state)
  | .route server _ options =>
    match resolveDNSRoute walker.router server options walker.allowFakeIP armed.options with
    | (some transport, .resolved, queryOptions) =>
      (some (.pending ⟨armed.ruleIndex, transport, queryOptions, none⟩), state)
    | _ => (none, state)
  | .reject method => ((rejectResult walker.message method).map .result, state)
  | .predefined action =>
    (some (.result { response := some (action.toResponse walker.message) }), state)
  | _ => (none, state)

/-- The loop of `sweepArmedDNSRules`; `kept` are the rules left of the index. -/
def sweepFrom : List ArmedRule → List ArmedRule → Walk → Option Commit × Walk
  | kept, [], state => (none, { state with armedRules := kept })
  | kept, armed :: rest, state =>
    let (ready, state) := walker.allResolved armed.futures state
    if ready then
      let (response, state) := walker.armedResponse armed state
      let (matched, state) := state.judge armed.ruleIndex armed.rule armed.options response
      if matched then
        match walker.commitArmed armed state with
        | (some commit, state) =>
          (some commit,
            { state with armedRules := kept ++ rest }.record (.committed armed.ruleIndex))
        | (none, state) => sweepFrom kept rest state
      else sweepFrom kept rest state
    else sweepFrom (kept ++ [armed]) rest (state.record (.passed armed.ruleIndex))

/-- `sweepArmedDNSRules`. -/
def sweepArmedDNSRules (state : Walk) : Option Commit × Walk :=
  walker.sweepFrom [] state.armedRules (state.record .swept)

/-! ## Walking the rules -/

/-- The futures of these tags that are not resolved. -/
def pendingTags : List String → Walk → List Nat × Walk
  | [], state => ([], state)
  | tag :: rest, state =>
    match state.namedFutures tag with
    | none => pendingTags rest state
    | some future =>
      let (resolved, state) := walker.resolved future state
      let (pending, state) := pendingTags rest state
      (if resolved then pending else future :: pending, state)

/-- The anonymous future, when it is not resolved. -/
def pendingAnonymous (anonymous : Option Nat) (state : Walk) : List Nat × Walk :=
  match anonymous with
  | none => ([], state)
  | some future =>
    let (resolved, state) := walker.resolved future state
    (if resolved then [] else [future], state)

/-- The armed rule for a race rule at the current position. -/
def newArmedRule (rule : DNSRule) (state : Walk) : ArmedRule × Walk :=
  let (pending, state) := walker.pendingTags rule.tree.matchResponseTags state
  let bindsAnonymous := rule.tree.matchResponseAnonymous
  let anonymousFuture := if bindsAnonymous then state.anonymousFuture else none
  let (pendingLast, state) := walker.pendingAnonymous anonymousFuture state
  (⟨state.ruleIndex, rule, pending ++ pendingLast, anonymousFuture, bindsAnonymous,
    state.effectiveOptions⟩, state)

/-- A race rule: it is armed, and swept at once when nothing is pending. -/
def armRule (rule : DNSRule) (state : Walk) : StepOutcome × Walk :=
  let (armed, state) := walker.newArmedRule rule state
  let state := state.arm armed
  if armed.futures.isEmpty then
    match walker.sweepArmedDNSRules state with
    | (some (.result result), state) => (.stop (.result result), state)
    | (some (.pending exchange), state) =>
      (.stop (.suspended (.pending exchange)), { state with armedRules := [] })
    | (none, state) => (.next, state)
  else (.next, state)

/-- The first future of these tags that is not resolved. -/
def awaitTags : List String → Walk → Option Nat × Walk
  | [], state => (none, state)
  | tag :: rest, state =>
    match state.namedFutures tag with
    | none => awaitTags rest state
    | some future =>
      let (resolved, state) := walker.resolved future state
      if resolved then awaitTags rest state else (some future, state)

/-- The future that a rule with bindings has to wait for. -/
def awaitBindings (tree : DNSRuleTree) (state : Walk) : Option Nat × Walk :=
  match walker.awaitTags tree.matchResponseTags state with
  | (some future, state) => (some future, state)
  | (none, state) =>
    if tree.matchResponseAnonymous then
      match state.anonymousFuture with
      | none => (none, state)
      | some future =>
        let (resolved, state) := walker.resolved future state
        (if resolved then none else some future, state)
    else (none, state)

/-- The race rules before this one are not all judged. -/
def drain (state : Walk) : StepOutcome × Walk := (.stop (.suspended .drain), state)

/-- A rule decides the exchange with this result. -/
def answer (result : ExchangeWithRulesResult) (state : Walk) : StepOutcome × Walk :=
  (.stop (.result result), state.record (.effect state.ruleIndex))

/-- The `evaluate` action. -/
def evaluate (server tag : String) (speculative : Bool) (options : RouteOptions) (state : Walk) :
    StepOutcome × Walk :=
  match walker.router.transport server with
  | none => (.next, if tag = "" then { state with anonymousFuture := none } else state)
  | some transport =>
    if !speculative && !state.armedRules.isEmpty then drain state
    else
      let event := if speculative then .speculated state.ruleIndex else .effect state.ruleIndex
      let queryOptions := applyDNSRouteOptions options state.effectiveOptions
      let (future, state) :=
        walker.launchDNSEvaluate tag transport queryOptions (state.record event)
      if tag = "" then (.next, { state with anonymousFuture := some future })
      else (.next, { state with namedFutures := Function.update state.namedFutures tag (some future) })

/-- Whether `respond` has to wait for the anonymous future; a rule with bindings has already
waited for the one it reads. -/
def respondWaits (tree : DNSRuleTree) (future : Nat) (state : Walk) : Bool × Walk :=
  if tree.hasBindings then (false, state)
  else
    let (resolved, state) := walker.resolved future state
    (!resolved, state)

/-- The `respond` action. -/
def respond (tree : DNSRuleTree) (state : Walk) : StepOutcome × Walk :=
  if !state.armedRules.isEmpty then drain state
  else
    let tag := tree.matchResponseTag
    if tag ≠ "" then
      answer (respondResult (state.namedResponses tag) (state.namedTransports tag)) state
    else
      match state.anonymousFuture with
      | none => answer (respondResult none none) state
      | some future =>
        let (waits, state) := walker.respondWaits tree future state
        if waits then (.stop (.suspended (.await future)), state)
        else
          let (response, state) := walker.view future state
          answer (respondResult response (state.transportOf future)) state

/-- The `route` action. -/
def route (server : String) (speculative : Bool) (options : RouteOptions) (state : Walk) :
    StepOutcome × Walk :=
  match resolveDNSRoute walker.router server options walker.allowFakeIP state.effectiveOptions with
  | (some transport, .resolved, queryOptions) =>
    if !state.armedRules.isEmpty then
      if speculative && state.terminal.isNone then
        let index := state.ruleIndex
        let (future, state) :=
          walker.launchDNSEvaluate "" transport queryOptions (state.record (.speculated index))
        drain { state with terminal := some (future, index) }
      else drain state
    else
      match state.terminal with
      | some (future, index) =>
        if index = state.ruleIndex then
          (.stop (.suspended (.pending
            { index := state.ruleIndex, transport := (state.transportOf future).getD transport,
              future := some future })), state)
        else (.stop (.suspended (.pending ⟨state.ruleIndex, transport, queryOptions, none⟩)), state)
      | none => (.stop (.suspended (.pending ⟨state.ruleIndex, transport, queryOptions, none⟩)), state)
  | _ => (.next, state)

/-- The switch over the action of a rule that matched. -/
def act (rule : DNSRule) (state : Walk) : StepOutcome × Walk :=
  match rule.action with
  | .routeOptions options =>
    (.next, { state with
      effectiveOptions := applyDNSRouteOptions options state.effectiveOptions }.record
        (.updated state.ruleIndex options))
  | .evaluate server tag speculative options => walker.evaluate server tag speculative options state
  | .respond => walker.respond rule.tree state
  | .route server speculative options => walker.route server speculative options state
  | .reject method =>
    if !state.armedRules.isEmpty then drain state
    else
      match rejectResult walker.message method with
      | some result => answer result state
      | none => (.next, state)
  | .predefined action =>
    if !state.armedRules.isEmpty then drain state
    else answer { response := some (action.toResponse walker.message) } state
  | .none => (.next, state)

/-- `Match` and the action of a rule that has nothing to wait for. -/
def judgeAndAct (rule : DNSRule) (state : Walk) : StepOutcome × Walk :=
  let (response, state) := walker.anonymousResponse state
  let (matched, state) := state.judge state.ruleIndex rule state.effectiveOptions response
  if matched then walker.act rule state else (.next, state)

/-- The loop body of `walkDNSRules`. -/
def walkStep (rule : DNSRule) (state : Walk) : StepOutcome × Walk :=
  let state := walker.arrive .rule state
  if rule.tree.hasBindings then
    let state := walker.settleDNSFutures state
    if rule.race then walker.armRule rule state
    else
      match walker.awaitBindings rule.tree state with
      | (some future, state) => (.stop (.suspended (.await future)), state)
      | (none, state) => walker.judgeAndAct rule state
  else walker.judgeAndAct rule state

/-- The loop of `walkDNSRules` over the rules from `ruleIndex` on. -/
def walkFrom : List DNSRule → Walk → WalkOutcome × Walk
  | [], state =>
    if !state.armedRules.isEmpty then (.suspended .drain, state)
    else
      (.suspended (.pending
        ⟨state.ruleIndex, walker.router.defaultTransport, state.effectiveOptions, none⟩), state)
  | rule :: rest, state =>
    match walker.walkStep rule state with
    | (.next, state) => walkFrom rest { state with ruleIndex := state.ruleIndex + 1 }
    | (.stop outcome, state) => (outcome, state)

/-- `walkDNSRules`. -/
def walkDNSRules (state : Walk) : WalkOutcome × Walk :=
  walker.walkFrom (walker.rules.drop state.ruleIndex) state

/-! ## Suspending and resuming -/

def exchangeResult (transport : DNSTransport) (answer : Except DNSError Msg) :
    ExchangeWithRulesResult :=
  { toExchangeResult := .ofClient (some transport) answer }

/-- The result of a pending exchange whose future is done. -/
def futureResult (exchange : PendingExchange) (future : Nat) (state : Walk) :
    ExchangeWithRulesResult :=
  match state.futures[future]? with
  | some found => exchangeResult found.transport found.answer
  | none => exchangeResult exchange.transport (.error (.other ""))

/-- `finishPendingExchange`. -/
def finishPendingExchange (fuel : Nat) (exchange : PendingExchange) (state : Walk) :
    Option ExchangeWithRulesResult × Walk :=
  match exchange.future with
  | some future =>
    match walker.waitUntil (fun state => state.isDone future) fuel state with
    | (.ready, state) =>
      (some (futureResult exchange future state), state.record (.effect exchange.index))
    | (.failed err, state) => (some { err := some err }, state)
    | (.waiting, state) => (none, state)
  | none =>
    let answer := walker.client.exchange exchange.transport
      (finalizeExchangeOptions walker.router exchange.options)
    (some (exchangeResult exchange.transport answer),
      (state.record (.sent exchange)).record (.effect exchange.index))

/-- The suspended walk cannot be entered again yet. -/
def mustWait (suspension : Suspension) (state : Walk) : Bool × Walk :=
  match suspension with
  | .await future =>
    let (resolved, state) := walker.resolved future state
    (!resolved, state)
  | .drain => (!state.armedRules.isEmpty, state)
  | .pending _ => (false, state)

/-- How a turn of the loop of `resumeExchangeWithRules` ends: with a result, with a query to
finish, at the select on the wake channel, or with a walk that is suspended again. -/
inductive TurnOutcome where
  | result (result : ExchangeWithRulesResult)
  | finish (exchange : PendingExchange)
  | wait
  | again (suspension : Suspension)

/-- The rest of a turn in which no armed rule has committed. -/
def turnRest (suspension : Suspension) (state : Walk) : TurnOutcome × Walk :=
  match suspension with
  | .pending exchange => (.finish exchange, state)
  | suspension =>
    match walker.mustWait suspension state with
    | (true, state) => (.wait, state)
    | (false, state) =>
      match walker.walkDNSRules state with
      | (.result result, state) => (.result result, state)
      | (.suspended suspension, state) => (.again suspension, state)

/-- One turn of the loop of `resumeExchangeWithRules`, up to its select. -/
def turn (suspension : Suspension) (state : Walk) : TurnOutcome × Walk :=
  match walker.sweepArmedDNSRules (walker.settleDNSFutures (walker.arrive .rule state)) with
  | (some (.result result), state) => (.result result, state)
  | (some (.pending exchange), state) => (.finish exchange, state)
  | (none, state) => walker.turnRest suspension state

/-- `resumeExchangeWithRules`. Without a result the walk is still going on when the fuel
is used up; the state is the one it has reached. -/
def resumeExchangeWithRules :
    Nat → Suspension → Walk → Option ExchangeWithRulesResult × Walk
  | 0, _, state => (none, state)
  | fuel + 1, suspension, state =>
    match walker.turn suspension state with
    | (.result result, state) => (some result, state)
    | (.finish exchange, state) => walker.finishPendingExchange fuel exchange state
    | (.wait, state) =>
      match walker.waitUntil Walk.wake fuel state with
      | (.ready, state) => resumeExchangeWithRules fuel suspension { state with wake := false }
      | (.failed err, state) => (some { err := some err }, state)
      | (.waiting, state) => (none, state)
    | (.again suspension, state) => resumeExchangeWithRules fuel suspension state

/-- `exchangeWithRules`, with the state the walk has reached. -/
def exchangeWithRules (fuel : Nat) (metadata : InboundContext) (options : DNSQueryOptions) :
    Option ExchangeWithRulesResult × Walk :=
  match walker.walkDNSRules { effectiveOptions := options, metadata := metadata } with
  | (.result result, state) => (some result, state)
  | (.suspended suspension, state) => walker.resumeExchangeWithRules fuel suspension state

end Walker
end AmneziaBox.Source.DNS
