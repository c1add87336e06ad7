import AmneziaBox.Source.DNS.LegacyRouter

/-!
# The state of the DNS rule walk

`dns/router.go`: `dnsRuleWalkState`, `dnsEvaluatedFuture`, `dnsArmedRule`,
`launchDNSEvaluate` and `settleDNSFutures`. An `evaluate` action sends its query
and goes on; the answer arrives when the callback closes `done`. Futures are kept
in one list and referred to by their position.

When a callback runs is up to the environment. A walk looks at the environment only
through `done` and the wake channel, so a schedule says what has happened by each
point at which the walk could see it.
-/
namespace AmneziaBox.Source.DNS
open Adapter Rule

/-- `exchangeWithRulesResult`. -/
structure ExchangeWithRulesResult extends ExchangeResult where
  rejectAction : Option RejectMethod := none
  deriving DecidableEq

/-- `dnsEvaluatedFuture`; `answer` is what its callback is called with. -/
structure Future where
  tag : String
  transport : DNSTransport
  answer : Except DNSError Msg
  done : Bool := false
  settled : Bool := false

/-- `dnsArmedRule`; a future is its position in the list of futures. -/
structure ArmedRule where
  ruleIndex : Nat
  rule : DNSRule
  futures : List Nat
  anonymousFuture : Option Nat
  bindsAnonymous : Bool
  options : DNSQueryOptions

/-- `dnsPendingExchange`, with the index of the rule it belongs to; the default server
has the index behind the last rule. -/
structure PendingExchange where
  index : Nat
  transport : DNSTransport
  options : DNSQueryOptions := {}
  future : Option Nat := none

/-- `dnsWalkSuspension`. -/
inductive Suspension where
  | await (future : Nat)
  | drain
  | pending (exchange : PendingExchange)

/-- What the callback of a future does: close `done`, and then offer a token to the wake
channel. -/
inductive EnvAction where
  | complete (future : Nat)
  | signal (future : Nat)
  deriving DecidableEq

/-- Where a running walk may find that callbacks have run. -/
inductive Point where
  | launch
  | rule
  | inspect
  deriving DecidableEq

/-- When the callbacks run. At the points of a running walk, counted, any number of their steps
may have happened. While a suspended walk waits, one callback after the other makes its next
step; `waiting` chooses which of those that have not returned. A wait may end with the error of
the context instead. -/
structure Schedule where
  running : Point → Nat → List EnvAction
  waiting : Nat → Except DNSError Nat

/-- A call of `Match`: the rule, and what could be seen when it was called. -/
structure Judgement where
  index : Nat
  rule : DNSRule
  options : DNSQueryOptions
  named : String → Option Msg
  namedFutures : String → Option Nat
  futures : List Future
  matched : Bool

inductive WalkEvent where
  | armed (index : Nat) (bound : List Nat)
  /-- A sweep over the armed rules starts. -/
  | swept
  /-- A sweep found an open future of an armed rule. -/
  | passed (index : Nat)
  | judged (judgement : Judgement)
  /-- A `route-options` action was applied. -/
  | updated (index : Nat) (action : RouteOptions)
  /-- A query was sent ahead of the race rules before it. -/
  | speculated (index : Nat)
  /-- A race rule decides the exchange. -/
  | committed (index : Nat)
  /-- The query of a pending exchange is sent. -/
  | sent (exchange : PendingExchange)
  /-- The rule answers, refuses, or its query is sent or read. -/
  | effect (index : Nat)

/-- The fields of `dnsRuleWalkState` that looking at a future leaves alone, and the
metadata of the context. -/
structure WalkControl where
  ruleIndex : Nat := 0
  effectiveOptions : DNSQueryOptions
  anonymousFuture : Option Nat := none
  namedFutures : String → Option Nat := fun _ => none
  armedRules : List ArmedRule := []
  /-- `terminalFuture` and `terminalIndex`. -/
  terminal : Option (Nat × Nat) := none
  metadata : InboundContext

/-- `dnsRuleWalkState`. `ran` and `waited` count the points and the waits so far, `events`
is what happened, the latest first. -/
structure Walk extends WalkControl where
  namedResponses : String → Option Msg := fun _ => none
  namedTransports : String → Option DNSTransport := fun _ => none
  futures : List Future := []
  wake : Bool := false
  /-- The futures whose callback has returned. -/
  returned : List Nat := []
  ran : Nat := 0
  waited : Nat := 0
  events : List WalkEvent := []

/-- `DNSClient` as the walk uses it: the answer to the query of each future, in the
order of the launches, and the answer to the final query. -/
structure WalkClient where
  evaluate : Nat → DNSTransport → DNSQueryOptions → Except DNSError Msg
  exchange : DNSTransport → DNSQueryOptions → Except DNSError Msg

/-- What a walk is started with. -/
structure Walker where
  router : Router
  client : WalkClient
  schedule : Schedule
  rules : List DNSRule
  message : Msg
  allowFakeIP : Bool

namespace Walk

def record (state : Walk) (event : WalkEvent) : Walk := { state with events := event :: state.events }

def isDone (state : Walk) (future : Nat) : Bool := state.futures[future]?.any Future.done

/-- The response of a future that was answered without error. -/
def answerOf (state : Walk) (future : Nat) : Option Msg :=
  match state.futures[future]? with
  | some { answer := .ok response, .. } => some response
  | _ => none

/-- The transport of a future. -/
def transportOf (state : Walk) (future : Nat) : Option DNSTransport :=
  state.futures[future]?.map Future.transport

/-- A callback makes its next step; where that is another one, nothing happens. -/
def applyAction (state : Walk) : EnvAction → Walk
  | .complete future =>
    { state with futures := state.futures.modify future fun future => { future with done := true } }
  | .signal future =>
    if state.isDone future ∧ future ∉ state.returned then
      { state with wake := true, returned := future :: state.returned }
    else state

/-- The next step of the callback of a future. -/
def owes (state : Walk) (future : Nat) : Option EnvAction :=
  if state.isDone future = false then some (.complete future)
  else if future ∉ state.returned then some (.signal future)
  else none

/-- The next steps of the callbacks that have not returned. -/
def owed (state : Walk) : List EnvAction :=
  (List.range state.futures.length).filterMap state.owes

def markSettled (state : Walk) (future : Nat) : Walk :=
  { state with futures := state.futures.modify future fun future => { future with settled := true } }

/-- The answer of a tagged future is kept under its tag. -/
def store (state : Walk) (tag : String) (response : Option Msg) (transport : DNSTransport) : Walk :=
  { state with
    namedResponses := Function.update state.namedResponses tag response
    namedTransports := Function.update state.namedTransports tag (some transport) }

end Walk

namespace Walker
variable (walker : Walker)

/-- What has happened by this point of the walk. -/
def arrive (point : Point) (state : Walk) : Walk :=
  (walker.schedule.running point state.ran).foldl Walk.applyAction
    { state with ran := state.ran + 1 }

/-- `dnsEvaluatedFuture.resolved`. -/
def resolved (future : Nat) (state : Walk) : Bool × Walk :=
  let state := walker.arrive .inspect state
  (state.isDone future, state)

/-- `dnsEvaluatedFuture.view`. -/
def view (future : Nat) (state : Walk) : Option Msg × Walk :=
  let (resolved, state) := walker.resolved future state
  (if resolved then state.answerOf future else none, state)

/-- `anonymousResponse`. -/
def anonymousResponse (state : Walk) : Option Msg × Walk :=
  match state.anonymousFuture with
  | none => (none, state)
  | some future => walker.view future state

/-- `launchDNSEvaluate`. The callback may run before the call returns. -/
def launchDNSEvaluate (tag : String) (transport : DNSTransport) (options : DNSQueryOptions)
    (state : Walk) : Nat × Walk :=
  let future := state.futures.length
  let answer := walker.client.evaluate future transport
    (finalizeExchangeOptions walker.router options)
  (future, walker.arrive .launch
    { state with futures := state.futures ++ [{ tag := tag, transport := transport, answer := answer }] })

/-- One turn of the loop of `settleDNSFutures`. -/
def settleFuture (state : Walk) (index : Nat) : Walk :=
  match state.futures[index]? with
  | none => state
  | some future =>
    if future.settled then state
    else
      let (resolved, state) := walker.resolved index state
      if resolved then
        let state := state.markSettled index
        if future.tag = "" then state
        else
          let (response, state) := walker.view index state
          state.store future.tag response future.transport
      else state

/-- `settleDNSFutures`. -/
def settleDNSFutures (state : Walk) : Walk :=
  (List.range state.futures.length).foldl walker.settleFuture state

/-- How a wait ends, if it does. -/
inductive WaitOutcome where
  | ready
  | failed (err : DNSError)
  | waiting

/-- Wait until `ready`, for at most `fuel` rounds. With no callback left the walk waits for
ever. -/
def waitUntil (ready : Walk → Bool) : Nat → Walk → WaitOutcome × Walk
  | 0, state => (.waiting, state)
  | fuel + 1, state =>
    match walker.schedule.waiting state.waited with
    | .error err => (.failed err, state)
    | .ok choice =>
      let state := { state with waited := state.waited + 1 }
      if ready state then (.ready, state)
      else
        match state.owed[choice % state.owed.length]? with
        | none => (.waiting, state)
        | some action => waitUntil ready fuel (state.applyAction action)

end Walker
end AmneziaBox.Source.DNS
