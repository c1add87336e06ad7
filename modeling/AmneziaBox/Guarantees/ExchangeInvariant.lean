import AmneziaBox.Source.DNS.WalkEffects

/-!
# Invariants of an exchange

An exchange walks over the rules, arms and sweeps race rules, is suspended and resumed, and ends by
finishing a query. What each of its changes to the state preserves holds when it is over.
-/
namespace AmneziaBox.Guarantees.ExchangeInvariant
open Source.Adapter Source.DNS WalkControl Walker
open Source.DNS.Walk (Moved Inspected)

structure Predicates where
  /-- The rules before the position are passed. -/
  passed : Nat → Walk → Prop
  /-- The futures were settled, and only looked at since. -/
  settled : Walk → Prop
  /-- A sweep has kept the first armed rules and comes to the others. -/
  sweeping : Nat → List ArmedRule → List ArmedRule → Walk → Prop
  /-- A query waits to be finished. -/
  pending : PendingExchange → Walk → Prop
  /-- A query is finished next. -/
  due : PendingExchange → Walk → Prop
  ended : Walk → Prop

/-- The query is that of the rule at its index, or it goes to the default server. -/
def Sends (walker : Walker) (options : DNSQueryOptions) (exchange : PendingExchange) : Prop :=
  match walker.rules[exchange.index]? with
  | some rule => ∃ server speculative action, rule.action = .route server speculative action ∧
      resolveDNSRoute walker.router server action walker.allowFakeIP options =
        (some exchange.transport, .resolved, exchange.options)
  | none => exchange.transport = walker.router.defaultTransport ∧ exchange.options = options

/-- The rule at the position, judged by the walk itself. -/
structure Walked (walker : Walker) (position : Nat) (rule : DNSRule) : Prop where
  isRule : walker.rules[position]? = some rule
  plain : rule.race = true → rule.tree.hasBindings = false

theorem matchResponseTags_of_not_hasBindings {tree : Source.Rule.DNSRuleTree}
    (free : ¬tree.hasBindings = true) : tree.matchResponseTags = [] := by
  simp only [Source.Rule.DNSRuleTree.hasBindings] at free
  simp_all

/-- What the environment and a settling pass leave true. -/
structure Stable (walker : Walker) (holds : Walk → Prop) : Prop where
  moved : ∀ {before after}, holds before → Moved before after → holds after
  settle : ∀ {state}, holds state → holds (walker.settleDNSFutures state)

namespace Predicates
variable (holds : Predicates)

def here (position : Nat) (state : Walk) : Prop :=
  holds.passed position state ∧ state.ruleIndex = position

def suspended (position : Nat) : Suspension → Walk → Prop
  | .pending exchange => holds.pending exchange
  | _ => holds.here position

def stepped (position : Nat) : StepOutcome × Walk → Prop
  | (.next, state) => holds.passed (position + 1) state ∧ state.ruleIndex = position
  | (.stop (.result _), state) => holds.ended state
  | (.stop (.suspended suspension), state) => holds.suspended position suspension state

def walked : WalkOutcome × Walk → Prop
  | (.result _, state) => holds.ended state
  | (.suspended suspension, state) => holds.suspended state.ruleIndex suspension state

def committed : Commit → Walk → Prop
  | .result _ => holds.ended
  | .pending exchange => holds.due exchange

def swept (position index : Nat) : Option Commit × Walk → Prop
  | (none, state) => holds.passed position state ∧ state.ruleIndex = index
  | (some commit, state) => holds.committed commit state

def turned (suspension : Suspension) : Walker.TurnOutcome × Walk → Prop
  | (.result _, state) => holds.ended state
  | (.finish exchange, state) => holds.due exchange state
  | (.wait, state) => holds.suspended state.ruleIndex suspension state
  | (.again suspension, state) => holds.suspended state.ruleIndex suspension state

/-- What has to be shown of each change. -/
structure Preserved (walker : Walker) : Prop where
  stable : ∀ position, Stable walker (holds.passed position)
  judge : ∀ {position rule state} response, Walked walker position rule →
    holds.passed position state → (rule.tree.matchResponseTags ≠ [] → holds.settled state) →
    holds.passed position (state.judge position rule state.effectiveOptions response).2
  advance : ∀ {position rule state}, Walked walker position rule → holds.passed position state →
    holds.passed (position + 1) state
  update : ∀ {position rule state} options, Walked walker position rule →
    holds.passed position state → holds.passed (position + 1) ({ state with
      effectiveOptions := applyDNSRouteOptions options state.effectiveOptions }.record
        (.updated position options))
  anonymous : ∀ {position state} future, holds.passed position state →
    holds.passed position { state with anonymousFuture := future }
  terminal : ∀ {position state} terminal, holds.passed position state →
    holds.passed position { state with terminal := terminal }
  index : ∀ {position state} index, holds.passed position state →
    holds.passed position { state with ruleIndex := index }
  speculate : ∀ {position state}, holds.passed position state →
    holds.passed position (state.record (.speculated position))
  effect : ∀ {position state}, holds.passed position state → state.armedRules = [] →
    holds.passed position (state.record (.effect position))
  launch : ∀ {position state} transport options, holds.passed position state →
    holds.passed position (walker.launchDNSEvaluate "" transport options state).2
  launchTagged : ∀ {position rule state server tag speculative action} transport options,
    Walked walker position rule → rule.action = .evaluate server tag speculative action →
    tag ≠ "" → holds.passed position state →
    let launched := walker.launchDNSEvaluate tag transport options state
    holds.passed (position + 1) { launched.2 with
      namedFutures := Function.update launched.2.namedFutures tag (some launched.1) }
  arm : ∀ {rule state}, holds.passed state.ruleIndex state →
    walker.rules[state.ruleIndex]? = some rule → rule.race = true →
    holds.passed (state.ruleIndex + 1)
      ((walker.newArmedRule rule state).2.arm (walker.newArmedRule rule state).1)
  settled : ∀ state, holds.settled (walker.settleDNSFutures state)
  inspected : ∀ {before after}, holds.settled before → Inspected walker.schedule before after →
    holds.settled after
  unchanged : ∀ {before after}, holds.settled before → after.futures = before.futures →
    holds.settled after
  sweep : ∀ {position state}, holds.passed position state →
    holds.sweeping position [] state.armedRules (state.record .swept)
  looked : ∀ {position kept rest before after}, holds.sweeping position kept rest before →
    Inspected walker.schedule before after → holds.sweeping position kept rest after
  unready : ∀ {position kept armed rest state}, holds.sweeping position kept (armed :: rest) state →
    holds.sweeping position (kept ++ [armed]) rest (state.record (.passed armed.ruleIndex))
  missed : ∀ {position kept armed rest state} response,
    holds.sweeping position kept (armed :: rest) state → holds.settled state →
    (∀ future ∈ armed.futures, state.isDone future = true) →
    let judged := state.judge armed.ruleIndex armed.rule armed.options response
    (judged.1 = true → (walker.commitArmed armed judged.2).1 = none) →
    holds.sweeping position kept rest judged.2
  commits : ∀ {position kept armed rest state commit} response,
    holds.sweeping position kept (armed :: rest) state → holds.settled state →
    (∀ future ∈ armed.futures, state.isDone future = true) →
    let judged := state.judge armed.ruleIndex armed.rule armed.options response
    judged.1 = true → (walker.commitArmed armed judged.2).1 = some commit →
    holds.committed commit ({ (walker.commitArmed armed judged.2).2 with
      armedRules := kept ++ rest }.record (.committed armed.ruleIndex))
  swept : ∀ {position kept state}, holds.sweeping position kept [] state →
    holds.passed position { state with armedRules := kept }
  suspend : ∀ {position state exchange}, holds.passed position state → state.armedRules = [] →
    exchange.index = position →
    (exchange.future = none → Sends walker state.effectiveOptions exchange) →
    holds.pending exchange state
  stablePending : ∀ exchange, Stable walker (holds.pending exchange)
  noneArmed : ∀ {exchange state}, holds.pending exchange state → state.armedRules = []
  sweptPending : ∀ {exchange state}, holds.pending exchange state →
    holds.pending exchange { state.record .swept with armedRules := [] }
  disarm : ∀ {exchange state}, holds.due exchange state →
    holds.pending exchange { state with armedRules := [] }
  due : ∀ {exchange state}, holds.pending exchange state → holds.due exchange state
  ended : ∀ {position state}, holds.passed position state → holds.ended state
  endedPending : ∀ {exchange state}, holds.pending exchange state → holds.ended state
  finish : ∀ {exchange state} fuel, holds.due exchange state →
    holds.ended (walker.finishPendingExchange fuel exchange state).2

end Predicates

namespace Predicates.Preserved
variable {holds : Predicates} {walker : Walker} (preserved : holds.Preserved walker)
  {position : Nat} {rule : DNSRule} {state : Walk}
include preserved

theorem here_moved {before after : Walk} (here : holds.here position before)
    (moved : Moved before after) : holds.here position after :=
  ⟨(preserved.stable _).moved here.1 moved, (congrArg ruleIndex moved.control).trans here.2⟩

theorem here_settle (here : holds.here position state) :
    holds.here position (walker.settleDNSFutures state) :=
  ⟨(preserved.stable _).settle here.1,
    (congrArg ruleIndex (walker.settleDNSFutures_observed state).control).trans here.2⟩

/-! ## A sweep -/

theorem sweepFrom (kept rest : List ArmedRule)
    (sweeping : holds.sweeping position kept rest state) (settled : holds.settled state) :
    holds.swept position state.ruleIndex (walker.sweepFrom kept rest state) := by
  induction rest generalizing kept state with
  | nil => exact ⟨preserved.swept sweeping, rfl⟩
  | cons armed rest ih =>
    have inspected := walker.allResolved_inspected armed.futures state
    have done := @isDone_of_allResolved walker state armed.futures
    rw [sweepFrom]
    generalize walker.allResolved armed.futures state = result at inspected done ⊢
    obtain ⟨ready, resolved⟩ := result
    dsimp only at inspected done ⊢
    have sweeping := preserved.looked sweeping inspected
    have settled := preserved.inspected settled inspected
    rw [← congrArg ruleIndex inspected.control]
    cases ready with
    | false => exact ih _ (preserved.unready sweeping) (preserved.unchanged settled rfl)
    | true =>
      rw [if_pos rfl]
      have viewed := walker.armedResponse_inspected armed resolved
      generalize walker.armedResponse armed resolved = result at viewed ⊢
      obtain ⟨response, seen⟩ := result
      have sweeping := preserved.looked sweeping viewed
      have settled := preserved.inspected settled viewed
      have done future (member : future ∈ armed.futures) : seen.isDone future = true :=
        viewed.isDone (done rfl future member)
      have missed := preserved.missed response sweeping settled done
      have commits := fun commit =>
        @preserved.commits position kept armed rest seen commit response sweeping settled done
      have judgedSettled : holds.settled
          (seen.judge armed.ruleIndex armed.rule armed.options response).2 :=
        preserved.unchanged settled rfl
      have index : (seen.judge armed.ruleIndex armed.rule armed.options response).2.ruleIndex =
          resolved.ruleIndex := (congrArg ruleIndex viewed.control :)
      generalize seen.judge armed.ruleIndex armed.rule armed.options response = result at *
      obtain ⟨matched, judged⟩ := result
      dsimp only at missed commits judgedSettled index ⊢
      rw [← index]
      cases matched with
      | false => exact ih _ (missed nofun) judgedSettled
      | true =>
        have acted := walker.commitArmed_inspected armed judged
        rw [if_pos rfl]
        generalize walker.commitArmed armed judged = result at missed commits acted ⊢
        obtain ⟨_ | commit, after⟩ := result
        · -- the rule cannot be used, and the sweep goes on without it
          rw [← congrArg ruleIndex acted.control]
          exact ih _ (preserved.looked (missed fun _ => rfl) acted)
            (preserved.inspected judgedSettled acted)
        · exact commits commit rfl rfl

theorem sweepArmedDNSRules (passed : holds.passed position state) (settled : holds.settled state) :
    holds.swept position state.ruleIndex (walker.sweepArmedDNSRules state) :=
  preserved.sweepFrom [] state.armedRules (preserved.sweep passed) (preserved.unchanged settled rfl)

theorem armRule (here : holds.here position state) (settled : holds.settled state)
    (isRule : walker.rules[position]? = some rule) (race : rule.race = true) :
    holds.stepped position (walker.armRule rule state) := by
  obtain ⟨passed, rfl⟩ := here
  have inspected := walker.newArmedRule_inspected rule state
  have armed := preserved.arm passed isRule race
  unfold armRule
  generalize walker.newArmedRule rule state = result at inspected armed ⊢
  obtain ⟨new, seen⟩ := result
  dsimp only at inspected armed ⊢
  have index : (seen.arm new).ruleIndex = state.ruleIndex :=
    (congrArg ruleIndex inspected.control :)
  split
  · have swept := preserved.sweepArmedDNSRules armed
      (preserved.unchanged (preserved.inspected settled inspected) rfl)
    rw [index] at swept
    generalize walker.sweepArmedDNSRules (seen.arm new) = outcome at swept ⊢
    obtain ⟨_ | _ | exchange, after⟩ := outcome
    · exact swept
    · exact swept
    · exact preserved.disarm swept
  · exact ⟨armed, index⟩

/-! ## The actions -/

section Act
variable (here : holds.here position state)
include here

theorem answer (noneArmed : state.armedRules = []) (result : ExchangeWithRulesResult) :
    holds.stepped position (Walker.answer result state) := by
  obtain ⟨passed, rfl⟩ := here
  exact preserved.ended (preserved.effect passed noneArmed)

theorem respond (tree : Source.Rule.DNSRuleTree) :
    holds.stepped position (walker.respond tree state) := by
  unfold Walker.respond
  split
  · exact here
  · next free =>
    have noneArmed : state.armedRules = [] := by simpa using free
    dsimp only
    split
    · exact preserved.answer here noneArmed _
    · split
      · exact preserved.answer here noneArmed _
      · rename_i future _
        have looked := walker.respondWaits_inspected tree future state
        generalize walker.respondWaits tree future state = looking at looked ⊢
        obtain ⟨waits, waited⟩ := looking
        have here := preserved.here_moved here looked.toMoved
        split
        · exact here
        · have viewed := walker.view_inspected future waited
          refine preserved.answer (preserved.here_moved here viewed.toMoved) ?_ _
          rw [viewed.control, looked.control, noneArmed]

variable (walked : Walked walker position rule)
include walked

theorem pass : holds.stepped position (.next, state) :=
  ⟨preserved.advance walked here.1, here.2⟩

theorem evaluate {server tag : String} {speculative : Bool} {action : RouteOptions}
    (evaluates : rule.action = .evaluate server tag speculative action) :
    holds.stepped position (walker.evaluate server tag speculative action state) := by
  unfold Walker.evaluate
  cases walker.router.transport server with
  | none =>
    dsimp only
    split
    · exact ⟨preserved.advance walked (preserved.anonymous none here.1), here.2⟩
    · exact preserved.pass here walked
  | some transport =>
    dsimp only
    split
    · exact here
    · next free =>
      have recorded : holds.here position (state.record
          (if speculative then .speculated state.ruleIndex else .effect state.ruleIndex)) := by
        obtain ⟨passed, rfl⟩ := here
        refine ⟨?_, rfl⟩
        cases speculative with
        | true => exact preserved.speculate passed
        | false => exact preserved.effect passed (by simpa using free)
      generalize state.record _ = start at recorded ⊢
      have index := (congrArg ruleIndex (walker.launchDNSEvaluate_observed tag transport
        (applyDNSRouteOptions action state.effectiveOptions) start).control).trans recorded.2
      by_cases untagged : tag = ""
      · subst untagged
        exact ⟨preserved.advance walked (preserved.anonymous _
          (preserved.launch transport _ recorded.1)), index⟩
      · rw [if_neg untagged]
        exact ⟨preserved.launchTagged transport _ walked evaluates untagged recorded.1, index⟩

theorem route {server : String} {speculative : Bool} {action : RouteOptions}
    (routes : rule.action = .route server speculative action) :
    holds.stepped position (walker.route server speculative action state) := by
  have stopped := here
  obtain ⟨passed, rfl⟩ := here
  unfold route
  split
  · rename_i transport queryOptions resolved
    have sends : Sends walker state.effectiveOptions
        ⟨state.ruleIndex, transport, queryOptions, none⟩ := by
      rw [Sends, walked.isRule]
      exact ⟨server, speculative, action, routes, resolved⟩
    split
    · split
      · have launched := walker.launchDNSEvaluate_observed "" transport queryOptions
          (state.record (.speculated state.ruleIndex))
        exact ⟨preserved.terminal _ (preserved.launch _ _ (preserved.speculate passed)),
          (congrArg ruleIndex launched.control :)⟩
      · exact stopped
    · next free =>
      have noneArmed : state.armedRules = [] := by simpa using free
      split
      · split
        · exact preserved.suspend passed noneArmed rfl nofun
        · exact preserved.suspend passed noneArmed rfl fun _ => sends
      · exact preserved.suspend passed noneArmed rfl fun _ => sends
  · exact preserved.pass stopped walked

theorem act : holds.stepped position (walker.act rule state) := by
  unfold Walker.act
  split
  · rename_i options _
    obtain ⟨passed, rfl⟩ := here
    exact ⟨preserved.update options walked passed, rfl⟩
  · rename_i evaluates
    exact preserved.evaluate here walked evaluates
  · exact preserved.respond here _
  · rename_i routes
    exact preserved.route here walked routes
  · split
    · exact here
    · next free =>
      split
      · exact preserved.answer here (by simpa using free) _
      · exact preserved.pass here walked
  · split
    · exact here
    · next free => exact preserved.answer here (by simpa using free) _
  · exact preserved.pass here walked

theorem judgeAndAct (settled : rule.tree.matchResponseTags ≠ [] → holds.settled state) :
    holds.stepped position (walker.judgeAndAct rule state) := by
  have viewed := walker.anonymousResponse_inspected state
  unfold Walker.judgeAndAct
  generalize walker.anonymousResponse state = result at viewed ⊢
  obtain ⟨response, seen⟩ := result
  dsimp only at viewed ⊢
  obtain ⟨passed, index⟩ := preserved.here_moved here viewed.toMoved
  have judged := preserved.judge response walked passed fun bound =>
    preserved.inspected (settled bound) viewed
  rw [index]
  split
  · exact preserved.act ⟨judged, index⟩ walked
  · exact preserved.pass ⟨judged, index⟩ walked

end Act

/-! ## The walk -/

theorem walkStep (here : holds.here position state) (isRule : walker.rules[position]? = some rule) :
    holds.stepped position (walker.walkStep rule state) := by
  have here := preserved.here_moved here (walker.arrive_moved .rule state)
  unfold Walker.walkStep
  generalize walker.arrive .rule state = start at here ⊢
  by_cases bound : rule.tree.hasBindings = true
  · rw [if_pos bound]
    have here := preserved.here_settle here
    have settled := preserved.settled start
    generalize walker.settleDNSFutures start = start at here settled ⊢
    by_cases race : rule.race = true
    · rw [if_pos race]
      exact preserved.armRule here settled isRule race
    · rw [if_neg race]
      have awaited := walker.awaitBindings_inspected rule.tree start
      generalize walker.awaitBindings rule.tree start = result at awaited ⊢
      have here := preserved.here_moved here awaited.toMoved
      obtain ⟨_ | future, after⟩ := result
      · exact preserved.judgeAndAct here ⟨isRule, fun is => absurd is race⟩ fun _ =>
          preserved.inspected settled awaited
      · exact here
  · rw [if_neg bound]
    refine preserved.judgeAndAct here ⟨isRule, fun _ => by simpa using bound⟩ fun tagged => ?_
    exact absurd (matchResponseTags_of_not_hasBindings bound) tagged

theorem walkFrom (remaining : List DNSRule) (passed : holds.passed state.ruleIndex state)
    (rest : remaining = walker.rules.drop state.ruleIndex) :
    holds.walked (walker.walkFrom remaining state) := by
  induction remaining generalizing state with
  | nil =>
    rw [walkFrom]
    split
    · exact ⟨passed, rfl⟩
    · next none =>
      refine preserved.suspend passed (by simpa using none) rfl fun _ => ?_
      have behind : walker.rules[state.ruleIndex]? = Option.none :=
        List.getElem?_eq_none_iff.mpr (List.drop_eq_nil_iff.mp rest.symm)
      rw [Sends, behind]
      exact ⟨rfl, rfl⟩
  | cons rule others ih =>
    obtain ⟨isRule, next⟩ := rule_of_drop rest
    have step := preserved.walkStep ⟨passed, rfl⟩ isRule
    rw [walkFrom]
    generalize walker.walkStep rule state = result at step ⊢
    obtain ⟨_ | _ | suspension, after⟩ := result
    · obtain ⟨passed, index⟩ := step
      rw [← index] at next passed
      exact ih (preserved.index _ passed) next
    · exact step
    · cases suspension with
      | pending => exact step
      | await | drain => exact ⟨step.2 ▸ step.1, rfl⟩

/-! ## The run -/

variable {suspension : Suspension}

theorem suspended_moved {before after : Walk}
    (suspended : holds.suspended before.ruleIndex suspension before) (moved : Moved before after) :
    holds.suspended after.ruleIndex suspension after := by
  rw [moved.control]
  cases suspension with
  | pending exchange => exact (preserved.stablePending exchange).moved suspended moved
  | await | drain => exact preserved.here_moved suspended moved

theorem suspended_ended (suspended : holds.suspended position suspension state) :
    holds.ended state := by
  cases suspension with
  | pending => exact preserved.endedPending suspended
  | await | drain => exact preserved.ended suspended.1

theorem turnRest (suspended : holds.suspended state.ruleIndex suspension state) :
    holds.turned suspension (walker.turnRest suspension state) := by
  have looked := preserved.suspended_moved suspended
    (walker.mustWait_inspected suspension state).toMoved
  cases suspension with
  | pending exchange => exact preserved.due suspended
  | await | drain =>
    unfold turnRest
    dsimp only
    generalize walker.mustWait _ state = result at looked ⊢
    obtain ⟨waits, seen⟩ := result
    cases waits with
    | true => exact looked
    | false =>
      have walked := preserved.walkFrom (walker.rules.drop seen.ruleIndex) looked.1 rfl
      dsimp only [walkDNSRules]
      generalize walker.walkFrom (walker.rules.drop seen.ruleIndex) seen = result at walked ⊢
      obtain ⟨_ | suspension, after⟩ := result <;> exact walked

theorem turn (suspended : holds.suspended state.ruleIndex suspension state) :
    holds.turned suspension (walker.turn suspension state) := by
  have arrived := preserved.suspended_moved suspended (walker.arrive_moved .rule state)
  unfold Walker.turn
  generalize walker.arrive .rule state = start at arrived ⊢
  cases suspension with
  | pending exchange =>
    have settled := (preserved.stablePending exchange).settle arrived
    rw [walker.sweepArmedDNSRules_nil (preserved.noneArmed settled)]
    exact preserved.turnRest (preserved.sweptPending settled)
  | await | drain =>
    have here := preserved.here_settle arrived
    have swept := preserved.sweepArmedDNSRules here.1 (preserved.settled start)
    rw [here.2] at swept
    generalize walker.sweepArmedDNSRules _ = result at swept ⊢
    obtain ⟨_ | _ | _, after⟩ := result
    · exact preserved.turnRest ⟨swept.2 ▸ swept.1, rfl⟩
    · exact swept
    · exact swept

theorem resume (fuel : Nat) (suspended : holds.suspended state.ruleIndex suspension state) :
    holds.ended (walker.resumeExchangeWithRules fuel suspension state).2 := by
  induction fuel generalizing suspension state with
  | zero => exact preserved.suspended_ended suspended
  | succ fuel ih =>
    have turned := preserved.turn suspended
    rw [resumeExchangeWithRules]
    generalize walker.turn suspension state = result at turned ⊢
    obtain ⟨outcome, after⟩ := result
    cases outcome with
    | result result => exact turned
    | finish exchange => exact preserved.finish fuel turned
    | again suspension => exact ih turned
    | wait =>
      have waited := preserved.suspended_moved turned (walker.waitUntil_moved Walk.wake fuel after)
      dsimp only
      generalize walker.waitUntil Walk.wake fuel after = result at waited ⊢
      obtain ⟨outcome, woken⟩ := result
      cases outcome with
      | failed | waiting => exact preserved.suspended_ended waited
      | ready => exact ih (preserved.suspended_moved waited (.of_futures_eq rfl nofun rfl rfl rfl rfl rfl))

/-- Whatever the schedule, the exchange is over in a state that the invariant allows. -/
theorem exchangeWithRules (fuel : Nat) {metadata : InboundContext} {options : DNSQueryOptions}
    (start : holds.passed 0 { effectiveOptions := options, metadata := metadata }) :
    holds.ended (walker.exchangeWithRules fuel metadata options).2 := by
  have walked : holds.walked
      (walker.walkDNSRules { effectiveOptions := options, metadata := metadata }) :=
    preserved.walkFrom _ start rfl
  unfold Walker.exchangeWithRules
  generalize walker.walkDNSRules _ = result at walked ⊢
  obtain ⟨outcome, after⟩ := result
  cases outcome with
  | result result => exact walked
  | suspended suspension => exact preserved.resume fuel walked

end Predicates.Preserved

end AmneziaBox.Guarantees.ExchangeInvariant
