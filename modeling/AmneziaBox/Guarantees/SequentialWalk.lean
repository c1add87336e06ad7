import AmneziaBox.Guarantees.RecordedResponses
import AmneziaBox.Source.Rule.Reads

/-!
# The sequential reading of a rule list

What a rule list means when nothing runs in parallel: an `evaluate` action waits for its
answer before the next rule is judged (`sequential`). The walk of the repository goes on
while queries are open. Without race rules, and with completions that do not fall between
two looks at a future, a state of the walk determines the state of the sequential reading
at the same rule, whichever futures have completed (`Simulates`), and every turn of the
loop keeps this.
-/
namespace AmneziaBox.Guarantees.SequentialWalk
open Source.Adapter Source.Rule Source.DNS RecordedResponses Function DNSRuleTree WalkControl Walker List Option
open Source.DNS.Walk (Moved Inspected Observed Progress)

/-! ## The reference -/

/-- What an `evaluate` action leaves behind: its server, and the response if there is one. -/
structure Evaluated where
  transport : DNSTransport
  response : Option Msg

structure Sequential where
  options : DNSQueryOptions
  /-- How many `evaluate` queries have been sent. -/
  launched : Nat := 0
  anonymous : Option Evaluated := none
  named : String → Option Evaluated := fun _ => none

namespace Sequential

def matchMetadata (state : Sequential) (metadata : InboundContext) : InboundContext :=
  { metadata.resetRuleCache with
    dnsResponse := state.anonymous.bind Evaluated.response
    namedDNSResponses := fun tag => (state.named tag).bind Evaluated.response
    destinationAddressMatchFromResponse := false }

/-- The answer of an `evaluate` action, under its tag. -/
def keep (state : Sequential) (tag : String) (transport : DNSTransport)
    (answer : Except DNSError Msg) : Sequential :=
  let evaluated : Evaluated := ⟨transport, answer.toOption⟩
  if tag = "" then { state with launched := state.launched + 1, anonymous := some evaluated }
  else
    { state with
      launched := state.launched + 1
      named := update state.named tag (some evaluated) }

end Sequential

def respondWith : Option Evaluated → ExchangeWithRulesResult
  | none => respondResult none none
  | some evaluated => respondResult evaluated.response (some evaluated.transport)

/-- The rules judged one after the other, each `evaluate` action run to its end. -/
def sequential (router : Router) (client : WalkClient) (message : Msg) (allowFakeIP : Bool)
    (metadata : InboundContext) : List DNSRule → Sequential → ExchangeWithRulesResult
  | [], state =>
    exchangeResult router.defaultTransport
      (client.exchange router.defaultTransport (finalizeExchangeOptions router state.options))
  | rule :: rest, state =>
    let goOn := sequential router client message allowFakeIP metadata rest
    if (rule.tree.matchOn (state.matchMetadata metadata)).1 then
      match rule.action with
      | .routeOptions options =>
        goOn { state with options := applyDNSRouteOptions options state.options }
      | .evaluate server tag _ options =>
        match router.transport server with
        | none => goOn (if tag = "" then { state with anonymous := none } else state)
        | some transport =>
          let queryOptions := finalizeExchangeOptions router (applyDNSRouteOptions options state.options)
          goOn (state.keep tag transport (client.evaluate state.launched transport queryOptions))
      | .respond =>
        let tag := rule.tree.matchResponseTag
        respondWith (if tag = "" then state.anonymous else state.named tag)
      | .route server _ options =>
        match resolveDNSRoute router server options allowFakeIP state.options with
        | (some transport, .resolved, queryOptions) =>
          exchangeResult transport
            (client.exchange transport (finalizeExchangeOptions router queryOptions))
        | _ => goOn state
      | .reject method =>
        match rejectResult message method with
        | some result => result
        | none => goOn state
      | .predefined action => { response := some (action.toResponse message) }
      | .none => goOn state
    else goOn state

/-! ## The rules and the schedules it is about -/

/-- What the checks of the repository leave of a rule list, for lists without race rules:
tags are distinct, response items stand in rules with `match_response`, and a logical rule
that responds is not bound to tags. -/
structure Ordered (rules : List DNSRule) : Prop where
  plain : ∀ rule ∈ rules, rule.race = false
  distinct : DistinctTags rules
  reads : ∀ rule ∈ rules, ∀ leaf ∈ rule.tree.leaves, leaf.Reads
  respond : ∀ rule ∈ rules, rule.action = .respond → rule.tree.matchResponseTag = "" →
    rule.tree.matchResponseTags = []

/-! ## The simulation -/

/-- The server and the response of a future, completed or not. -/
def evaluated (state : Walk) (i : Nat) : Option Evaluated :=
  state.futures[i]?.map fun future => ⟨future.transport, response future⟩

/-- The state of the sequential reading that a state of the walk stands for. -/
structure Simulates (walker : Walker) (metadata : InboundContext) (position : Nat) (state : Walk)
    (sequentialState : Sequential) : Prop where
  filed : Filed walker position state
  noneArmed : state.armedRules = []
  noTerminal : state.terminal = none
  query : state.metadata.toQuery = metadata.toQuery
  ignored : state.metadata.ignoreDestinationIPCIDRMatch = metadata.ignoreDestinationIPCIDRMatch
  options : state.effectiveOptions = sequentialState.options
  launched : state.futures.length = sequentialState.launched
  launchedLe : state.futures.length ≤ position
  anonymousLaunched : ∀ i, state.anonymousFuture = some i → i < state.futures.length
  anonymous : sequentialState.anonymous = state.anonymousFuture.bind (evaluated state)
  namedAll : ∀ (i : Nat) (future : Future), state.futures[i]? = some future → future.tag ≠ "" →
    state.namedFutures future.tag = some i
  named : ∀ tag, sequentialState.named tag = (state.namedFutures tag).bind (evaluated state)
  completed : state.Completed

section Steps
variable {walker : Walker} {metadata : InboundContext} {position : Nat} {seq : Sequential}
  {before after : Walk}

theorem evaluated_of_continues {settles : Nat → Bool}
    (continues : Continues before.futures after.futures settles) :
    evaluated after = evaluated before := by
  funext i
  unfold evaluated
  cases old : before.futures[i]? with
  | none => rw [(continues i).1.mpr old]
  | some future =>
    obtain ⟨later, found, -, answer, transport, -⟩ := (continues i).2 future old
    rw [found, map_some, map_some, response, response, answer, transport]

/-- Completions and settlements do not matter to the sequential reading. -/
theorem Simulates.continues (simulates : Simulates walker metadata position before seq)
    (filed : Filed walker position after) (control : after.toWalkControl = before.toWalkControl)
    {settles : Nat → Bool} (continues : Continues before.futures after.futures settles)
    (completed : after.Completed) : Simulates walker metadata position after seq where
  filed := filed
  noneArmed := by rw [control]; exact simulates.noneArmed
  noTerminal := by rw [control]; exact simulates.noTerminal
  query := by rw [control]; exact simulates.query
  ignored := by rw [control]; exact simulates.ignored
  options := by rw [control]; exact simulates.options
  launched := by rw [continues.length]; exact simulates.launched
  launchedLe := by rw [continues.length]; exact simulates.launchedLe
  anonymousLaunched := by rw [control, continues.length]; exact simulates.anonymousLaunched
  anonymous := by rw [control, evaluated_of_continues continues]; exact simulates.anonymous
  namedAll i later found tagged := by
    obtain ⟨future, old, tag, -⟩ := continues.before found
    rw [control, tag]
    exact simulates.namedAll i future old (tag ▸ tagged)
  named := by rw [control, evaluated_of_continues continues]; exact simulates.named
  completed := completed

theorem Simulates.moved (simulates : Simulates walker metadata position before seq)
    (moved : Moved before after) : Simulates walker metadata position after seq :=
  simulates.continues (simulates.filed.moved moved) moved.control (moved_continues moved)
    (moved.progress.completed simulates.completed)

variable {state : Walk}

theorem Simulates.settle (simulates : Simulates walker metadata position state seq) :
    Simulates walker metadata position (walker.settleDNSFutures state) seq := by
  obtain ⟨_, continues⟩ := settleDNSFutures_continues walker state
  have observed := walker.settleDNSFutures_observed state
  exact simulates.continues (settleDNSFutures_filed walker simulates.filed) observed.control
    continues (observed.progress.completed simulates.completed)

/-- Recording an event and counting up leave the simulation alone. -/
theorem Simulates.congr (simulates : Simulates walker metadata position before seq)
    (control : after.toWalkControl = before.toWalkControl)
    (futures : after.futures = before.futures)
    (responses : after.namedResponses = before.namedResponses)
    (transports : after.namedTransports = before.namedTransports)
    (returned : after.returned = before.returned) :
    Simulates walker metadata position after seq := by
  have filed : Filed walker position after :=
    simulates.filed.congr (congrArg namedFutures control) futures responses transports
  have continues : Continues before.futures after.futures fun _ => false :=
    futures.symm ▸ moved_continues (.refl before)
  refine simulates.continues filed control continues fun i member => ?_
  rw [Walk.isDone, futures]
  exact simulates.completed i (returned ▸ member)

/-! ## Launching a query -/

/-- The answer that the client gives to the next `evaluate` query. -/
def nextAnswer (walker : Walker) (seq : Sequential) (transport : DNSTransport)
    (options : DNSQueryOptions) : Except DNSError Msg :=
  walker.client.evaluate seq.launched transport (finalizeExchangeOptions walker.router options)

variable (walker) in
/-- The list of futures after a launch: the old ones and a new one at the end. -/
theorem evaluated_launch (tag : String) (transport : DNSTransport) (options : DNSQueryOptions)
    (launched : state.futures.length = seq.launched) (i : Nat) :
    evaluated (walker.launchDNSEvaluate tag transport options state).2 i =
      if i = state.futures.length then
        some ⟨transport, (nextAnswer walker seq transport options).toOption⟩
      else evaluated state i := by
  have moved := walker.arrive_moved .launch { state with futures := state.futures ++
    [{ tag := tag, transport := transport, answer := walker.client.evaluate state.futures.length
        transport (finalizeExchangeOptions walker.router options) }] }
  have same : evaluated (walker.launchDNSEvaluate tag transport options state).2 = _ :=
    evaluated_of_continues (moved_continues moved)
  rw [same, evaluated, evaluated, getElem?_append]
  by_cases last : i = state.futures.length
  · subst last
    simp [nextAnswer, launched, response]
  · rw [if_neg last]
    split
    · rfl
    · have outside : state.futures.length < i := by omega
      rw [getElem?_singleton, if_neg (by omega), getElem?_eq_none (by omega)]

variable (walker) in
theorem launch_length (tag : String) (transport : DNSTransport) (options : DNSQueryOptions)
    (state : Walk) : (walker.launchDNSEvaluate tag transport options state).2.futures.length =
      state.futures.length + 1 := by
  unfold launchDNSEvaluate
  rw [(walker.arrive_moved .launch _).length, length_append, length_singleton]

/-- The older futures are what they were. -/
theorem bind_evaluated_launch (tag : String) (transport : DNSTransport) (options : DNSQueryOptions)
    (launched : state.futures.length = seq.launched) {future : Option Nat}
    (old : ∀ i, future = some i → i < state.futures.length) :
    future.bind (evaluated (walker.launchDNSEvaluate tag transport options state).2) =
      future.bind (evaluated state) := by
  cases future with
  | none => rfl
  | some i =>
    have below := old i rfl
    rw [bind_some, bind_some, evaluated_launch walker tag transport options launched,
      if_neg (by omega)]

theorem Simulates.namedLaunched (simulates : Simulates walker metadata position state seq)
    (tag : String) : ∀ i, state.namedFutures tag = some i → i < state.futures.length := by
  intro i named
  obtain ⟨future, found, -⟩ := simulates.filed.named tag i named
  exact (List.getElem?_eq_some_iff.mp found).1

variable {tag : String}

theorem launch_tag {transport : DNSTransport} {options : DNSQueryOptions} {i : Nat}
    {future : Future}
    (found : (walker.launchDNSEvaluate tag transport options state).2.futures[i]? = some future) :
    (∃ old, state.futures[i]? = some old ∧ future.tag = old.tag) ∨
      (i = state.futures.length ∧ future.tag = tag) := by
  obtain ⟨old, before, same, -⟩ :=
    (moved_continues (walker.arrive_moved .launch _)).before found
  rw [getElem?_append] at before
  split at before
  · exact .inl ⟨old, before, same⟩
  · rw [getElem?_singleton] at before
    split at before
    · cases before
      exact .inr ⟨by omega, same⟩
    · cases before

section Simulates
variable (simulates : Simulates walker metadata position state seq)
include simulates

/-- A launch, and the bookkeeping of the anonymous future or of the tag. -/
theorem Simulates.launch (tag : String)
    (transport : DNSTransport) (options : DNSQueryOptions) {seq' : Sequential}
    (kept : after = { (walker.launchDNSEvaluate tag transport options state).2 with
      anonymousFuture := after.anonymousFuture, namedFutures := after.namedFutures })
    (keptSeq : seq' = { seq with
      launched := seq.launched + 1, anonymous := seq'.anonymous, named := seq'.named })
    (filed : Filed walker (position + 1) after)
    (anonymousLaunched : ∀ i, after.anonymousFuture = some i → i < state.futures.length + 1)
    (anonymous : seq'.anonymous = after.anonymousFuture.bind (evaluated after))
    (namedAll : ∀ (i : Nat) (future : Future), after.futures[i]? = some future → future.tag ≠ "" →
      after.namedFutures future.tag = some i)
    (named : ∀ tag, seq'.named tag = (after.namedFutures tag).bind (evaluated after)) :
    Simulates walker metadata (position + 1) after seq' := by
  have control := (walker.launchDNSEvaluate_observed tag transport options state).control
  have length := launch_length walker tag transport options state
  have futures : after.futures = _ := congrArg Walk.futures kept
  constructor
  · exact filed
  · rw [kept]
    exact (congrArg armedRules control).trans simulates.noneArmed
  · rw [kept]
    exact (congrArg terminal control).trans simulates.noTerminal
  · rw [kept]
    exact (congrArg (·.metadata.toQuery) control).trans simulates.query
  · rw [kept]
    exact (congrArg (·.metadata.ignoreDestinationIPCIDRMatch) control).trans simulates.ignored
  · rw [kept, keptSeq]
    exact (congrArg effectiveOptions control).trans simulates.options
  · rw [futures, keptSeq]
    exact length.trans (congrArg (· + 1) simulates.launched)
  · rw [futures, length]
    exact Nat.succ_le_succ simulates.launchedLe
  · rw [futures, length]
    exact anonymousLaunched
  · exact anonymous
  · exact namedAll
  · exact named
  · rw [kept]
    exact (walker.launchDNSEvaluate_observed tag transport options state).progress.completed
      simulates.completed

/-- The query of an `evaluate` action without a tag. -/
theorem Simulates.launch_untagged (transport : DNSTransport) (options : DNSQueryOptions) :
    let launched := walker.launchDNSEvaluate "" transport options state
    Simulates walker metadata (position + 1)
      { launched.2 with anonymousFuture := some launched.1 }
      (seq.keep "" transport (nextAnswer walker seq transport options)) := by
  intro launched
  have control : launched.2.toWalkControl = state.toWalkControl :=
    (walker.launchDNSEvaluate_observed "" transport options state).control
  have new := evaluated_launch walker "" transport options simulates.launched state.futures.length
  have filed := (simulates.filed.launch_untagged transport options).mono (Nat.le_succ position)
  have keeps : seq.keep "" transport (nextAnswer walker seq transport options) = { seq with
      launched := seq.launched + 1
      anonymous := some ⟨transport, (nextAnswer walker seq transport options).toOption⟩ } := by
    rw [Sequential.keep, if_pos rfl]
  rw [keeps]
  refine simulates.launch "" transport options rfl rfl (filed.congr rfl rfl rfl rfl) ?_ ?_ ?_ ?_
  · intro i same
    cases same
    exact Nat.lt_succ_self _
  · exact (new.trans (if_pos rfl)).symm
  · intro i future found tagged
    rcases launch_tag found with ⟨old, before, same⟩ | ⟨-, untagged⟩
    · rw [same] at tagged ⊢
      exact (congrFun (congrArg namedFutures control) _).trans
        (simulates.namedAll i old before tagged)
    · exact absurd untagged tagged
  · intro tag
    change seq.named tag = (launched.2.namedFutures tag).bind (evaluated launched.2)
    rw [control, bind_evaluated_launch "" transport options simulates.launched
      (simulates.namedLaunched tag)]
    exact simulates.named tag

variable {rule : DNSRule}

/-- The query of the `evaluate` rule at the position, under its tag. -/
theorem Simulates.launch_tagged (distinct : DistinctTags walker.rules)
    (isRule : walker.rules[position]? = some rule)
    (evaluates : EvaluatesTo tag rule) (tagged : tag ≠ "") (transport : DNSTransport)
    (options : DNSQueryOptions) :
    let launched := walker.launchDNSEvaluate tag transport options state
    Simulates walker metadata (position + 1)
      { launched.2 with
        namedFutures := update launched.2.namedFutures tag (some launched.1) }
      (seq.keep tag transport (nextAnswer walker seq transport options)) := by
  intro launched
  have control : launched.2.toWalkControl = state.toWalkControl :=
    (walker.launchDNSEvaluate_observed tag transport options state).control
  have new := evaluated_launch walker tag transport options simulates.launched state.futures.length
  have filed := simulates.filed.launch distinct isRule evaluates tagged transport options
  have keeps : seq.keep tag transport (nextAnswer walker seq transport options) = { seq with
      launched := seq.launched + 1, named := update seq.named tag
        (some ⟨transport, (nextAnswer walker seq transport options).toOption⟩) } := if_neg tagged
  rw [keeps]
  refine simulates.launch tag transport options rfl rfl filed ?_ ?_ ?_ ?_
  · intro i same
    exact Nat.lt_succ_of_lt (simulates.anonymousLaunched i
      ((congrArg anonymousFuture control).symm.trans same))
  · change seq.anonymous = launched.2.anonymousFuture.bind (evaluated launched.2)
    rw [control, bind_evaluated_launch tag transport options simulates.launched
      simulates.anonymousLaunched]
    exact simulates.anonymous
  · intro i future found futureTagged
    change update launched.2.namedFutures tag (some launched.1) future.tag = some i
    rcases launch_tag found with ⟨old, before, same⟩ | ⟨last, same⟩
    · -- the new future is the only one with its tag
      obtain ⟨latest, latestFound, latestTag⟩ := filed.named tag launched.1 (update_self ..)
      have other : future.tag ≠ tag := by
        intro shared
        have below : i < state.futures.length := (List.getElem?_eq_some_iff.mp before).1
        have : i = state.futures.length := filed.distinct i launched.1 future latest found
          latestFound (shared.trans latestTag.symm) futureTagged
        omega
      rw [update_of_ne other, control, same]
      exact simulates.namedAll i old before (same ▸ futureTagged)
    · rw [same, update_self, last]
      rfl
  · intro other
    change update seq.named tag _ other =
      (update launched.2.namedFutures tag (some launched.1) other).bind (evaluated launched.2)
    by_cases same : other = tag
    · subst same
      rw [update_self, update_self]
      exact (new.trans (if_pos rfl)).symm
    · rw [update_of_ne same, update_of_ne same, control,
        bind_evaluated_launch tag transport options simulates.launched (simulates.namedLaunched other)]
      exact simulates.named other

/-! ## What a rule sees -/

/-- The named response of a tag whose future is resolved and settled. -/
theorem Simulates.namedResponse_eq (covered : ∀ i, CoveredAt state i) (tagged : tag ≠ "")
    (done : ∀ i, state.namedFutures tag = some i → state.isDone i = true) :
    state.namedResponses tag = (seq.named tag).bind Evaluated.response ∧
      respondResult (state.namedResponses tag) (state.namedTransports tag) =
        respondWith (seq.named tag) := by
  rw [simulates.named tag]
  cases launched : state.namedFutures tag with
  | none =>
    have absent := simulates.filed.absent tag fun i future found same => by
      have named := simulates.namedAll i future found (same ▸ tagged)
      rw [same, launched] at named
      cases named
    rw [absent]
    exact ⟨rfl, rfl⟩
  | some i =>
    obtain ⟨future, found, same⟩ := simulates.filed.named tag i launched
    have isDone : future.done = true := by simpa [Walk.isDone, found] using done i launched
    have settled := covered i future found isDone
    have recorded := simulates.filed.filed i future found (same ▸ tagged)
    have server := simulates.filed.transport i future found (same ▸ tagged) settled
    rw [settled, same] at recorded
    rw [same] at server
    rw [bind_some, recorded, server, evaluated, found]
    exact ⟨rfl, rfl⟩

/-- The anonymous response once its future is resolved. -/
theorem Simulates.anonymousResponse_eq
    (done : ∀ i, state.anonymousFuture = some i → state.isDone i = true) :
    (walker.anonymousResponse state).1 = seq.anonymous.bind Evaluated.response := by
  rw [simulates.anonymous]
  unfold anonymousResponse
  cases anonymous : state.anonymousFuture with
  | none => rfl
  | some i =>
    have below := simulates.anonymousLaunched i anonymous
    have found := getElem?_eq_getElem below
    have seen := (walker.view_inspected i state).isDone (done i anonymous)
    rw [view_fst, if_pos seen, answerOf_eq found, bind_some, evaluated, found]
    rfl

/-- The answer of a rule that responds with the anonymous response. -/
theorem Simulates.respond_anonymous {i : Nat} (anonymous : state.anonymousFuture = some i)
    (done : state.isDone i = true) :
    respondResult (walker.view i state).1 ((walker.view i state).2.transportOf i) =
      respondWith seq.anonymous := by
  have inspected := walker.view_inspected i state
  have found := getElem?_eq_getElem (simulates.anonymousLaunched i anonymous)
  rw [simulates.anonymous, anonymous, bind_some, inspected.transportOf, view_fst,
    if_pos (inspected.isDone done), answerOf_eq found, evaluated, Walk.transportOf, found]
  rfl

/-- Whatever a rule is bound to, it sees what the sequential reading sees. -/
theorem Simulates.matchOn_eq {tree : DNSRuleTree} (reads : ∀ leaf ∈ tree.leaves, leaf.Reads)
    {answer : Option Msg}
    (named : ∀ tag ∈ tree.matchResponseTags,
      state.namedResponses tag = (seq.named tag).bind Evaluated.response)
    (anonymous : tree.matchResponseAnonymous = true →
      answer = seq.anonymous.bind Evaluated.response) :
    (tree.matchOn (state.matchMetadata answer)).1 =
      (tree.matchOn (seq.matchMetadata metadata)).1 := by
  refine matchOn_congr reads
    ⟨⟨simulates.query, rfl, rfl, by simp⟩, rfl, rfl, simulates.ignored⟩ ?_ rfl rfl
  intro leaf below bound
  unfold DefaultDNSRule.boundResponse
  by_cases untagged : leaf.matchResponseTag = ""
  · simp only [untagged, bne_self_eq_false, Bool.false_eq_true, if_false]
    refine anonymous (matchResponseAnonymous_iff.mpr ⟨leaf, below, ?_⟩)
    simp [DefaultDNSRule.matchResponseAnonymous, bound, untagged]
  · rw [if_pos (by simpa using untagged), if_pos (by simpa using untagged)]
    exact named _ (mem_matchResponseTags.mpr ⟨leaf, below, rfl, untagged⟩)

/-- A judgement writes the rule cache only. -/
theorem Simulates.judge (index : Nat)
    (rule : DNSRule) (options : DNSQueryOptions) (answer : Option Msg) :
    Simulates walker metadata position (state.judge index rule options answer).2 seq := by
  obtain ⟨waiting, result, -⟩ :=
    rule.tree.matchOn_settles (state.matchMetadata answer) rfl
  have after : (rule.tree.matchOn (state.matchMetadata answer)).2 = _ := congrArg Prod.snd result
  constructor
  case query =>
    change (rule.tree.matchOn (state.matchMetadata answer)).2.toQuery = _
    rw [after]
    exact simulates.query
  case ignored =>
    change (rule.tree.matchOn (state.matchMetadata answer)).2.ignoreDestinationIPCIDRMatch = _
    rw [after]
    exact simulates.ignored
  case filed => exact simulates.filed.congr rfl rfl rfl rfl
  case noneArmed => exact simulates.noneArmed
  case noTerminal => exact simulates.noTerminal
  case options => exact simulates.options
  case launched => exact simulates.launched
  case launchedLe => exact simulates.launchedLe
  case anonymousLaunched => exact simulates.anonymousLaunched
  case anonymous => exact simulates.anonymous
  case namedAll => exact simulates.namedAll
  case named => exact simulates.named
  case completed => exact simulates.completed

end Simulates

/-! ## The actions -/

variable (walker metadata) in
def reference : List DNSRule → Sequential → ExchangeWithRulesResult :=
  sequential walker.router walker.client walker.message walker.allowFakeIP metadata

variable (walker) in
/-- The result of a pending exchange without a future. -/
def pendingResult (exchange : PendingExchange) : ExchangeWithRulesResult :=
  exchangeResult exchange.transport (walker.client.exchange exchange.transport
    (finalizeExchangeOptions walker.router exchange.options))

variable (walker metadata position seq) in
/-- How a turn of the loop of `walkDNSRules` at a rule relates to the sequential reading
at that rule. -/
def StepSimulates (rule : DNSRule) (before : Walk) : StepOutcome × Walk → Prop
  | (.next, after) => after.ruleIndex = position ∧ ∃ seq',
      Simulates walker metadata (position + 1) after seq' ∧
        ∀ rest, reference walker metadata (rule :: rest) seq = reference walker metadata rest seq'
  | (.stop (.result result), _) => ∀ rest, reference walker metadata (rule :: rest) seq = result
  | (.stop (.suspended (.pending exchange)), after) =>
      after.armedRules = [] ∧ exchange.future = none ∧
        ∀ rest, reference walker metadata (rule :: rest) seq = pendingResult walker exchange
  | (.stop (.suspended (.await future)), after) =>
      after.ruleIndex = position ∧ Simulates walker metadata position after seq ∧
        future < after.futures.length ∧ after.isDone future = false ∧ Progress before after
  | (.stop (.suspended .drain), _) => False

theorem Simulates.next (simulates : Simulates walker metadata position state seq) :
    Simulates walker metadata (position + 1) state seq :=
  { simulates with
    filed := simulates.filed.mono (Nat.le_succ position)
    launchedLe := Nat.le_succ_of_le simulates.launchedLe }

section Act
variable {rule : DNSRule} (simulates : Simulates walker metadata position state seq)
  (index : state.ruleIndex = position)
include simulates index

/-- The rule has no effect, in the walk and in the sequential reading. -/
theorem pass_simulates
    (skips : ∀ rest, reference walker metadata (rule :: rest) seq =
      reference walker metadata rest seq) :
    StepSimulates walker metadata position seq rule before (.next, state) :=
  ⟨index, seq, simulates.next, skips⟩

variable (matched : (rule.tree.matchOn (seq.matchMetadata metadata)).1 = true)
include matched

theorem evaluate_simulates (distinct : DistinctTags walker.rules)
    (isRule : walker.rules[position]? = some rule) {server tag : String} {speculative : Bool}
    {options : RouteOptions} (action : rule.action = .evaluate server tag speculative options) :
    StepSimulates walker metadata position seq rule before
      (walker.evaluate server tag speculative options state) := by
  have goesOn (rest : List DNSRule) : reference walker metadata (rule :: rest) seq =
      match walker.router.transport server with
      | none => reference walker metadata rest
          (if tag = "" then { seq with anonymous := none } else seq)
      | some transport => reference walker metadata rest (seq.keep tag transport
          (nextAnswer walker seq transport (applyDNSRouteOptions options seq.options))) := by
    simp [reference, sequential, matched, action, nextAnswer]
  unfold evaluate
  cases found : walker.router.transport server with
  | none =>
    simp only [found] at goesOn
    by_cases untagged : tag = ""
    · simp only [untagged, if_true] at goesOn ⊢
      refine ⟨index, _, ?_, goesOn⟩
      exact { simulates.next with
        filed := simulates.next.filed.congr rfl rfl rfl rfl
        anonymousLaunched := by simp
        anonymous := rfl }
    · simp only [untagged, if_false] at goesOn ⊢
      exact pass_simulates simulates index goesOn
  | some transport =>
    simp only [found] at goesOn
    have free : (!speculative && !state.armedRules.isEmpty) = false := by
      simp [simulates.noneArmed]
    simp only [free, Bool.false_eq_true, if_false]
    have recorded (event : WalkEvent) :
        Simulates walker metadata position (state.record event) seq :=
      simulates.congr rfl rfl rfl rfl rfl
    rw [← simulates.options] at goesOn
    have control := fun tag event => (walker.launchDNSEvaluate_observed tag transport
      (applyDNSRouteOptions options state.effectiveOptions) (state.record event)).control
    by_cases untagged : tag = ""
    · subst untagged
      rw [if_pos rfl]
      exact ⟨(congrArg ruleIndex (control _ _)).trans index, _,
        (recorded _).launch_untagged transport _, goesOn⟩
    · rw [if_neg untagged]
      exact ⟨(congrArg ruleIndex (control _ _)).trans index, _,
        (recorded _).launch_tagged distinct isRule ⟨_, _, _, action⟩ untagged transport _, goesOn⟩

theorem route_simulates {server : String} {speculative : Bool} {options : RouteOptions}
    (action : rule.action = .route server speculative options) :
    StepSimulates walker metadata position seq rule before
      (walker.route server speculative options state) := by
  unfold route
  rw [simulates.options, simulates.noneArmed, simulates.noTerminal]
  split
  · rename_i transport queryOptions resolved
    refine ⟨simulates.noneArmed, rfl, fun rest => ?_⟩
    simp [reference, sequential, matched, action, resolved, pendingResult]
  · refine pass_simulates simulates index fun rest => ?_
    simp [reference, sequential, action]

variable (progress : Progress before state)
  (named : rule.tree.matchResponseTag ≠ "" →
    respondResult (state.namedResponses rule.tree.matchResponseTag)
        (state.namedTransports rule.tree.matchResponseTag) =
      respondWith (seq.named rule.tree.matchResponseTag))
include progress named

/-- A rule that responds has seen its bindings resolved, or waits for the anonymous
future. -/
theorem respond_simulates (action : rule.action = .respond)
    (anonymous : rule.tree.matchResponseTag = "" → rule.tree.hasBindings = true →
      ∀ i, state.anonymousFuture = some i → state.isDone i = true) :
    StepSimulates walker metadata position seq rule before (walker.respond rule.tree state) := by
  have responds (rest : List DNSRule) : reference walker metadata (rule :: rest) seq =
      respondWith (if rule.tree.matchResponseTag = "" then seq.anonymous
        else seq.named rule.tree.matchResponseTag) := by
    simp [reference, sequential, matched, action]
  unfold respond
  rw [simulates.noneArmed]
  by_cases tagged : rule.tree.matchResponseTag = ""
  · rw [if_neg (not_not_intro tagged)]
    rw [if_pos tagged] at responds
    cases launched : state.anonymousFuture with
    | none =>
      rw [simulates.anonymous, launched] at responds
      exact responds
    | some i =>
      by_cases bound : rule.tree.hasBindings = true
      · simp only [respondWaits, bound, if_true, Bool.false_eq_true, if_false]
        intro rest
        rw [responds, simulates.respond_anonymous launched (anonymous tagged bound i launched)]
      · have looked := walker.resolved_inspected i state
        have answer := walker.resolved_fst i state
        simp only [respondWaits, bound, Bool.false_eq_true, if_false]
        generalize walker.resolved i state = result at *
        obtain ⟨resolved, seen⟩ := result
        have stillSimulates := simulates.moved looked.toMoved
        have sameAnonymous : seen.anonymousFuture = some i :=
          (congrArg anonymousFuture looked.control).trans launched
        cases resolved with
        | false =>
          exact ⟨(congrArg ruleIndex looked.control).trans index, stillSimulates,
            stillSimulates.anonymousLaunched i sameAnonymous, answer.symm,
            progress.trans looked.progress⟩
        | true =>
          intro rest
          rw [responds, stillSimulates.respond_anonymous sameAnonymous answer.symm]
  · rw [if_pos tagged, named tagged]
    rw [if_neg tagged] at responds
    exact responds

theorem act_simulates (ordered : Ordered walker.rules)
    (isRule : walker.rules[position]? = some rule)
    (anonymous : rule.tree.matchResponseAnonymous = true →
      ∀ i, state.anonymousFuture = some i → state.isDone i = true) :
    StepSimulates walker metadata position seq rule before (walker.act rule state) := by
  unfold act
  split
  · rename_i options action
    refine ⟨index, { seq with options := applyDNSRouteOptions options seq.options }, ?_, fun rest => ?_⟩
    · exact { simulates.next with
        filed := simulates.next.filed.congr rfl rfl rfl rfl
        options := congrArg (applyDNSRouteOptions options) simulates.options }
    · simp [reference, sequential, matched, action]
  · rename_i action
    exact evaluate_simulates simulates index matched ordered.distinct isRule action
  · rename_i action
    refine respond_simulates simulates index matched progress named action fun tagged bound => ?_
    -- without tags, what the rule is bound to is the anonymous response
    have untagged := ordered.respond rule (mem_of_getElem? isRule) action tagged
    refine anonymous ?_
    simpa [hasBindings, untagged] using bound
  · rename_i action
    exact route_simulates simulates index matched action
  · rename_i method action
    rw [simulates.noneArmed]
    cases rejected : rejectResult walker.message method with
    | some result =>
      intro rest
      simp [reference, sequential, matched, action, rejected]
    | none =>
      refine pass_simulates simulates index fun rest => ?_
      simp only [reference, sequential, matched, if_true, action, rejected]
  · rename_i predefined action
    rw [simulates.noneArmed]
    intro rest
    simp only [reference, sequential, matched, if_true, action]
  · rename_i action
    refine pass_simulates simulates index fun rest => ?_
    simp [reference, sequential, matched, action]

end Act

/-! ## The walk -/

/-- Everything the rule is bound to is resolved, and settled where it has a tag. -/
structure Ready (tree : DNSRuleTree) (state : Walk) : Prop where
  covered : tree.matchResponseTags ≠ [] → ∀ i, CoveredAt state i
  tags : ∀ tag ∈ tree.matchResponseTags, ∀ i, state.namedFutures tag = some i → state.isDone i = true
  anonymous : tree.matchResponseAnonymous = true → ∀ i, state.anonymousFuture = some i →
    state.isDone i = true

theorem judgeAndAct_simulates (simulates : Simulates walker metadata position state seq)
    (index : state.ruleIndex = position) (ordered : Ordered walker.rules)
    (isRule : walker.rules[position]? = some rule)
    (progress : Progress before state) (ready : Ready rule.tree state) :
    StepSimulates walker metadata position seq rule before (walker.judgeAndAct rule state) := by
  have viewed := walker.anonymousResponse_inspected state
  have answerEq := fun bound => simulates.anonymousResponse_eq (ready.anonymous bound)
  have named : ∀ tag ∈ rule.tree.matchResponseTags,
      state.namedResponses tag = (seq.named tag).bind Evaluated.response ∧
        respondResult (state.namedResponses tag) (state.namedTransports tag) =
          respondWith (seq.named tag) := by
    intro tag member
    obtain ⟨_, _, _, tagged⟩ := mem_matchResponseTags.mp member
    exact simulates.namedResponse_eq (ready.covered (ne_nil_of_mem member)) tagged
      (ready.tags tag member)
  unfold judgeAndAct
  generalize walker.anonymousResponse state = result at *
  obtain ⟨answer, seen⟩ := result
  dsimp only at *
  rw [← viewed.namedResponses, ← viewed.namedTransports] at named
  have seenSimulates := simulates.moved viewed.toMoved
  have seenIndex : seen.ruleIndex = position := by rw [viewed.control, index]
  have judged := seenSimulates.judge seen.ruleIndex rule seen.effectiveOptions answer
  have same : (seen.judge seen.ruleIndex rule seen.effectiveOptions answer).1 =
      (rule.tree.matchOn (seq.matchMetadata metadata)).1 :=
    seenSimulates.matchOn_eq (ordered.reads rule (mem_of_getElem? isRule))
      (fun tag member => (named tag member).1) answerEq
  rw [same]
  cases matched : (rule.tree.matchOn (seq.matchMetadata metadata)).1 with
  | false =>
    refine pass_simulates judged seenIndex fun rest => ?_
    simp [reference, sequential, matched]
  | true =>
    rw [if_pos rfl]
    have still : Progress before
        (seen.judge seen.ruleIndex rule seen.effectiveOptions answer).2 :=
      (progress.trans viewed.progress).trans (.of_done (fun _ => id) rfl id)
    refine act_simulates judged seenIndex matched still
      (fun tagged => (named _ (matchResponseTag_mem tagged)).2) ordered isRule ?_
    intro bound i anonymous
    exact viewed.isDone (ready.anonymous bound i
      ((congrArg anonymousFuture viewed.control).symm.trans anonymous))

/-- The loop body at a rule that is no race rule. -/
theorem walkStep_simulates (undisturbed : walker.schedule.Undisturbed)
    (simulates : Simulates walker metadata position state seq) (index : state.ruleIndex = position)
    (ordered : Ordered walker.rules) (isRule : walker.rules[position]? = some rule) :
    StepSimulates walker metadata position seq rule state (walker.walkStep rule state) := by
  have arrived := walker.arrive_moved .rule state
  have simulates := simulates.moved arrived
  unfold walkStep
  generalize walker.arrive .rule state = start at *
  have startIndex : start.ruleIndex = position := by rw [arrived.control, index]
  by_cases bound : rule.tree.hasBindings = true
  · rw [if_pos bound, if_neg (by rw [ordered.plain rule (mem_of_getElem? isRule)]; simp)]
    have observed := walker.settleDNSFutures_observed start
    have covered := settleDNSFutures_covered walker start undisturbed
    have simulates := simulates.settle
    generalize walker.settleDNSFutures start = settled at *
    have settledIndex : settled.ruleIndex = position := by rw [observed.control, startIndex]
    have awaited := walker.awaitBindings_inspected rule.tree settled
    have spec := walker.awaitBindings_spec rule.tree settled
    generalize walker.awaitBindings rule.tree settled = result at *
    obtain ⟨_ | future, after⟩ := result <;> dsimp only at *
    all_goals
      have progress : Progress state after :=
        (arrived.progress.trans observed.progress).trans awaited.progress
      have afterIndex : after.ruleIndex = position := by rw [awaited.control, settledIndex]
      have simulates := simulates.moved awaited.toMoved
    · refine judgeAndAct_simulates simulates afterIndex ordered isRule progress ⟨?_, ?_, ?_⟩
      · exact fun _ i => (covered i).of_futures (awaited.undisturbed undisturbed)
      · rw [awaited.control]
        exact spec.1
      · rw [awaited.control]
        exact spec.2
    · obtain ⟨launched, open_⟩ := spec
      refine ⟨afterIndex, simulates, ?_, open_, progress⟩
      rw [← awaited.control] at launched
      rcases launched with ⟨tag, named⟩ | anonymous
      · exact simulates.namedLaunched tag future named
      · exact simulates.anonymousLaunched future anonymous
  · rw [if_neg bound]
    have untagged :=
      ExchangeInvariant.matchResponseTags_of_not_hasBindings bound
    refine judgeAndAct_simulates simulates startIndex ordered isRule arrived.progress
      ⟨fun tagged => absurd untagged tagged, by simp [untagged], fun anonymous => ?_⟩
    simp [hasBindings, anonymous] at bound

end Steps

end AmneziaBox.Guarantees.SequentialWalk
