import Mathlib.Data.Finset.Card
import Mathlib.Data.Finset.Range
import AmneziaBox.Guarantees.SequentialWalk

/-!
# The order of completions does not matter

Without race rules `exchangeWithRules` returns what the sequential reading of the rule
list returns, for every schedule that completes futures while a query is launched,
between two rules or while the walk waits. Each turn of the loop either ends with that
result or stays suspended for it. The walk comes to an end, whichever callback runs next:
as long as it waits for a future the callback of that future has yet to offer its token, and
each token that is taken leaves fewer steps of callbacks to come.
-/
namespace AmneziaBox.Guarantees.CompletionOrder
open Source.Adapter Source.Rule Source.DNS RecordedResponses SequentialWalk Walk WalkControl Walker
open Source.DNS.Walk (Moved Inspected Observed)
open Source.DNS.Example List

/-- Waiting is never cut off by the context. -/
def Unfailing (schedule : Schedule) : Prop := ∀ n err, schedule.waiting n ≠ .error err

section Runs
variable {walker : Walker} {metadata : InboundContext} {target : ExchangeWithRulesResult}

/-! ## A suspended walk -/

variable (walker metadata target) in
/-- The walk is suspended and stands for a sequential reading with this result. -/
def Suspended (suspension : Suspension) (state : Walk) : Prop :=
  match suspension with
  | .await future => state.ruleIndex ≤ walker.rules.length ∧ future < state.futures.length ∧
      ∃ seq, Simulates walker metadata state.ruleIndex state seq ∧
        reference walker metadata (walker.rules.drop state.ruleIndex) seq = target
  | .pending exchange => state.armedRules = [] ∧ exchange.future = none ∧
      pendingResult walker exchange = target
  | .drain => False

/-- The walk is at the same rule, and callbacks may have made steps. -/
structure SameRule (before after : Walk) : Prop where
  ruleIndex : after.ruleIndex = before.ruleIndex
  length : after.futures.length = before.futures.length
  progress : Progress before after

variable {before after : Walk}

theorem SameRule.trans {middle : Walk} (first : SameRule before middle)
    (second : SameRule middle after) : SameRule before after :=
  ⟨second.ruleIndex.trans first.ruleIndex, second.length.trans first.length,
    first.progress.trans second.progress⟩

theorem sameRule_of_moved (moved : Moved before after) : SameRule before after :=
  ⟨congrArg ruleIndex moved.control, moved.length, moved.progress⟩

theorem sameRule_settle (state : Walk) : SameRule state (walker.settleDNSFutures state) :=
  have observed := walker.settleDNSFutures_observed state
  ⟨congrArg ruleIndex observed.control, settleDNSFutures_length walker state,
    observed.progress⟩

variable {suspension : Suspension}

/-- Completions and settlements keep a suspended walk suspended. -/
theorem Suspended.keep (suspended : Suspended walker metadata target suspension before)
    (same : SameRule before after) (noneArmed : after.armedRules = before.armedRules)
    (simulates : ∀ {seq}, Simulates walker metadata before.ruleIndex before seq →
      Simulates walker metadata before.ruleIndex after seq) :
    Suspended walker metadata target suspension after := by
  cases suspension with
  | pending exchange => exact ⟨noneArmed.trans suspended.1, suspended.2⟩
  | drain => exact suspended
  | await future =>
    obtain ⟨inside, below, seq, simulated, result⟩ := suspended
    refine ⟨?_, ?_, seq, ?_, ?_⟩
    · rw [same.ruleIndex]
      exact inside
    · rw [same.length]
      exact below
    · rw [same.ruleIndex]
      exact simulates simulated
    · rw [same.ruleIndex]
      exact result

theorem Suspended.moved (suspended : Suspended walker metadata target suspension before)
    (moved : Moved before after) : Suspended walker metadata target suspension after :=
  suspended.keep (sameRule_of_moved moved) (congrArg armedRules moved.control)
    fun simulates => simulates.moved moved

variable {state : Walk}

theorem Suspended.settle (suspended : Suspended walker metadata target suspension state) :
    Suspended walker metadata target suspension (walker.settleDNSFutures state) :=
  suspended.keep (sameRule_settle state)
    (congrArg armedRules (walker.settleDNSFutures_observed state).control)
    Simulates.settle

/-! ## One pass over the rules -/

/-- Where the walk waits now: further down the list, or at the same rule. -/
def Advanced (before after : Walk) : Prop :=
  before.ruleIndex < after.ruleIndex ∨ SameRule before after

variable (walker metadata target) in
/-- What a pass over the rules comes to. -/
def WalkSimulates (before : Walk) : WalkOutcome × Walk → Prop
  | (.result result, _) => result = target
  | (.suspended suspension, after) => Suspended walker metadata target suspension after ∧
      ∀ future, suspension = .await future → after.isDone future = false ∧ Advanced before after

theorem walkFrom_simulates (undisturbed : walker.schedule.Undisturbed)
    (ordered : Ordered walker.rules) (remaining : List DNSRule) {seq : SequentialWalk.Sequential}
    (simulates : Simulates walker metadata state.ruleIndex state seq)
    (inside : state.ruleIndex ≤ walker.rules.length)
    (here : remaining = walker.rules.drop state.ruleIndex)
    (result : reference walker metadata remaining seq = target) :
    WalkSimulates walker metadata target state (walker.walkFrom remaining state) := by
  induction remaining generalizing state seq with
  | nil =>
    rw [walkFrom, simulates.noneArmed]
    refine ⟨⟨simulates.noneArmed, rfl, ?_⟩, by simp⟩
    rw [← result, pendingResult, reference, sequential, simulates.options]
  | cons rule rest ih =>
    obtain ⟨isRule, next⟩ := rule_of_drop here
    have below : state.ruleIndex < walker.rules.length := (List.getElem?_eq_some_iff.mp isRule).1
    have step := walkStep_simulates undisturbed simulates rfl ordered isRule
    rw [walkFrom]
    generalize walker.walkStep rule state = stepped at *
    obtain ⟨_ | _ | suspension, after⟩ := stepped
    · obtain ⟨index, seq', simulates', goesOn⟩ := step
      rw [← index] at simulates' next
      have counted : Simulates walker metadata
          ({ after with ruleIndex := after.ruleIndex + 1 } : Walk).ruleIndex
          { after with ruleIndex := after.ruleIndex + 1 } seq' :=
        { simulates' with filed := simulates'.filed.congr rfl rfl rfl rfl }
      have walked := ih counted (Nat.succ_le_of_lt (index ▸ below)) next
        ((goesOn rest).symm.trans result)
      dsimp only
      generalize walker.walkFrom rest { after with ruleIndex := after.ruleIndex + 1 } = outcome at *
      obtain ⟨_ | suspension, final⟩ := outcome
      · exact walked
      · refine ⟨walked.1, fun future same => ?_⟩
        obtain ⟨open_, further | sameRule⟩ := walked.2 future same
        · exact ⟨open_, .inl (by change after.ruleIndex + 1 < _ at further; omega)⟩
        · have moved : final.ruleIndex = after.ruleIndex + 1 := sameRule.ruleIndex
          exact ⟨open_, .inl (by omega)⟩
    · exact (step rest).symm.trans result
    · cases suspension with
      | drain => exact step.elim
      | pending exchange =>
        obtain ⟨noneArmed, future, answers⟩ := step
        exact ⟨⟨noneArmed, future, (answers rest).symm.trans result⟩, by simp⟩
      | await future =>
        obtain ⟨index, simulates', launched, open_, progress⟩ := step
        rw [← index] at simulates'
        refine ⟨⟨index ▸ inside, launched, seq, simulates', ?_⟩, ?_⟩
        · rw [index, ← here]
          exact result
        · intro other same
          obtain rfl : future = other := Suspension.await.inj same
          exact ⟨open_, .inr ⟨index, simulates'.launched.trans simulates.launched.symm, progress⟩⟩

/-! ## One turn of the loop -/

variable (walker metadata target) in
/-- What a turn of the loop of `resumeExchangeWithRules` comes to. -/
def TurnSimulates (suspension : Suspension) (before : Walk) : Walker.TurnOutcome × Walk → Prop
  | (.result result, _) => result = target
  | (.finish exchange, _) => exchange.future = none ∧ pendingResult walker exchange = target
  | (.wait, after) => Suspended walker metadata target suspension after ∧
      SameRule before after ∧ ∃ future, suspension = .await future ∧ after.isDone future = false
  | (.again suspension', after) => Suspended walker metadata target suspension' after ∧
      ∀ future, suspension' = .await future → after.isDone future = false ∧
        (before.ruleIndex < after.ruleIndex ∨
          SameRule before after ∧ ∀ awaited, suspension = .await awaited → after.isDone awaited = true)

theorem TurnSimulates.earlier {middle : Walk} {result : Walker.TurnOutcome × Walk}
    (simulates : TurnSimulates walker metadata target suspension middle result)
    (same : SameRule before middle) :
    TurnSimulates walker metadata target suspension before result := by
  obtain ⟨outcome, after⟩ := result
  cases outcome with
  | result result => exact simulates
  | finish exchange => exact simulates
  | wait =>
    obtain ⟨suspended, sameRule, open_⟩ := simulates
    exact ⟨suspended, same.trans sameRule, open_⟩
  | again suspension' =>
    refine ⟨simulates.1, fun future isAwait => ?_⟩
    obtain ⟨open_, further | ⟨sameRule, resolved⟩⟩ := simulates.2 future isAwait
    · exact ⟨open_, .inl (same.ruleIndex ▸ further)⟩
    · exact ⟨open_, .inr ⟨same.trans sameRule, resolved⟩⟩

section
variable (undisturbed : walker.schedule.Undisturbed) (ordered : Ordered walker.rules)
  (suspended : Suspended walker metadata target suspension state)
include undisturbed ordered suspended

theorem turnRest_simulates :
    TurnSimulates walker metadata target suspension state (walker.turnRest suspension state) := by
  cases suspension with
  | drain => exact suspended.elim
  | pending exchange => exact suspended.2
  | await awaited =>
    have looked := walker.resolved_inspected awaited state
    have answer := walker.resolved_fst awaited state
    have suspended := suspended.moved looked.toMoved
    have same := sameRule_of_moved looked.toMoved
    unfold turnRest mustWait
    dsimp only
    generalize walker.resolved awaited state = result at *
    obtain ⟨resolved, seen⟩ := result
    cases resolved with
    | false => exact ⟨suspended, same, awaited, rfl, answer.symm⟩
    | true =>
      obtain ⟨inside, -, seq, simulates, result⟩ := suspended
      have walked := walkFrom_simulates undisturbed ordered
        (walker.rules.drop seen.ruleIndex) simulates inside rfl result
      simp only [Bool.not_true, walkDNSRules]
      generalize walker.walkFrom (walker.rules.drop seen.ruleIndex) seen = outcome at *
      obtain ⟨_ | suspension, after⟩ := outcome
      · exact walked
      · refine ⟨walked.1, fun future isAwait => ?_⟩
        obtain ⟨open_, further | sameRule⟩ := walked.2 future isAwait
        · exact ⟨open_, .inl (same.ruleIndex ▸ further)⟩
        · refine ⟨open_, .inr ⟨same.trans sameRule, fun other isOther => ?_⟩⟩
          obtain rfl : awaited = other := Suspension.await.inj isOther
          exact sameRule.progress.done awaited answer.symm

theorem turn_simulates :
    TurnSimulates walker metadata target suspension state (walker.turn suspension state) := by
  have same : SameRule state (walker.settleDNSFutures (walker.arrive .rule state)) :=
    (sameRule_of_moved (walker.arrive_moved .rule state)).trans (sameRule_settle _)
  have settled := (suspended.moved (walker.arrive_moved .rule state)).settle
  unfold turn
  generalize walker.settleDNSFutures (walker.arrive .rule state) = start at *
  have noneArmed : start.armedRules = [] := by
    cases suspension with
    | drain => exact settled.elim
    | pending exchange => exact settled.1
    | await future =>
      obtain ⟨-, -, seq, simulates, -⟩ := settled
      exact simulates.noneArmed
  rw [walker.sweepArmedDNSRules_nil noneArmed]
  have recorded : SameRule start { start.record .swept with armedRules := [] } :=
    ⟨rfl, rfl, .of_done (fun _ => id) rfl id⟩
  have swept : Suspended walker metadata target suspension
      { start.record .swept with armedRules := [] } :=
    settled.keep recorded noneArmed.symm fun simulates =>
      simulates.congr (by rw [← noneArmed]; rfl) rfl rfl rfl rfl
  exact (turnRest_simulates undisturbed ordered swept).earlier (same.trans recorded)

end

/-! ## Every result is the sequential one -/

theorem finishPendingExchange_result (fuel : Nat) {exchange : PendingExchange}
    (future : exchange.future = none) (state : Walk) :
    (walker.finishPendingExchange fuel exchange state).1 = some (pendingResult walker exchange) := by
  unfold finishPendingExchange
  rw [future]
  rfl

theorem waitUntil_unfailing (unfailing : Unfailing walker.schedule) (ready : Walk → Bool)
    (fuel : Nat) (state : Walk) (err : DNSError) :
    (walker.waitUntil ready fuel state).1 ≠ .failed err := by
  induction fuel generalizing state with
  | zero => simp [waitUntil]
  | succ fuel ih =>
    rw [waitUntil]
    cases delivered : walker.schedule.waiting state.waited with
    | error err => exact absurd delivered (unfailing _ _)
    | ok choice =>
      dsimp only
      split
      · simp
      · split
        · simp
        · exact ih _

theorem cleared_moved (state : Walk) : Moved state { state with wake := false } :=
  .of_futures_eq rfl nofun rfl rfl rfl rfl rfl

theorem resumeExchangeWithRules_sound (undisturbed : walker.schedule.Undisturbed)
    (unfailing : Unfailing walker.schedule) (ordered : Ordered walker.rules) (fuel : Nat)
    (suspended : Suspended walker metadata target suspension state) :
    ∀ result, (walker.resumeExchangeWithRules fuel suspension state).1 = some result →
      result = target := by
  induction fuel generalizing suspension state with
  | zero => simp [resumeExchangeWithRules]
  | succ fuel ih =>
    have turned := turn_simulates undisturbed ordered suspended
    intro result returned
    rw [resumeExchangeWithRules] at returned
    generalize walker.turn suspension state = outcome at *
    obtain ⟨outcome, after⟩ := outcome
    cases outcome with
    | result answer =>
      obtain rfl : answer = result := Option.some.inj returned
      exact turned
    | finish exchange =>
      obtain ⟨future, answers⟩ := turned
      rw [finishPendingExchange_result fuel future after] at returned
      exact (Option.some.inj returned).symm.trans answers
    | again suspension' => exact ih turned.1 result returned
    | wait =>
      have moved := walker.waitUntil_moved wake fuel after
      have never := waitUntil_unfailing unfailing wake fuel after
      dsimp only at returned
      generalize walker.waitUntil wake fuel after = waited at *
      obtain ⟨outcome, woken⟩ := waited
      cases outcome with
      | failed err => exact absurd rfl (never err)
      | waiting => cases returned
      | ready => exact ih (turned.1.moved (moved.trans (cleared_moved woken))) result returned

/-! ## What is left to happen -/

/-- The futures that are not resolved. -/
def openFutures (state : Walk) : Finset Nat :=
  (Finset.range state.futures.length).filter fun i => state.isDone i = false

/-- The futures whose callback has not returned. -/
def unreturned (state : Walk) : Finset Nat :=
  (Finset.range state.futures.length).filter (· ∉ state.returned)

/-- What is left to happen: every step of a callback and every token taken lowers it. -/
def remaining (state : Walk) : Nat :=
  (openFutures state).card + (2 * (unreturned state).card + state.wake.toNat)

theorem lt_length_of_isDone {i : Nat} (done : state.isDone i = true) : i < state.futures.length := by
  obtain ⟨future, found, -⟩ := (Option.any_eq_true _ _).mp done
  exact (List.getElem?_eq_some_iff.mp found).1

namespace SameRule
variable (same : SameRule before after)
include same

theorem openFutures_subset : openFutures after ⊆ openFutures before := by
  intro i member
  simp only [openFutures, Finset.mem_filter, same.length] at member ⊢
  refine ⟨member.1, ?_⟩
  rw [← Bool.not_eq_true]
  intro done
  exact Bool.false_ne_true (member.2.symm.trans (same.progress.done i done))

theorem openFutures_lt {future : Nat} (launched : future < before.futures.length)
    (open_ : before.isDone future = false) (done : after.isDone future = true) :
    (openFutures after).card < (openFutures before).card := by
  refine Finset.card_lt_card ⟨same.openFutures_subset, fun subset => ?_⟩
  have still : future ∈ openFutures after := subset (by simp [openFutures, launched, open_])
  exact Bool.false_ne_true ((Finset.mem_filter.mp still).2.symm.trans done)

theorem unreturned_subset : unreturned after ⊆ unreturned before := by
  intro i member
  simp only [unreturned, Finset.mem_filter, same.length] at member ⊢
  exact ⟨member.1, fun returned => member.2 (same.progress.returned i returned)⟩

variable (completed : after.Completed)
include completed

/-- A token was there before, or it is the one of a callback that has returned since. -/
theorem token (token : after.wake = true) :
    before.wake = true ∨ (unreturned after).card < (unreturned before).card := by
  refine (same.progress.token token).imp_right fun ⟨i, returned, new⟩ => ?_
  refine Finset.card_lt_card ⟨same.unreturned_subset, fun subset => ?_⟩
  have launched : i < before.futures.length :=
    same.length ▸ lt_length_of_isDone (completed i returned)
  have still : i ∈ unreturned after := subset (by simp [unreturned, launched, new])
  exact (Finset.mem_filter.mp still).2 returned

theorem tokens_le : 2 * (unreturned after).card + after.wake.toNat ≤
    2 * (unreturned before).card + before.wake.toNat := by
  have returned := Finset.card_le_card same.unreturned_subset
  cases wake : after.wake with
  | false =>
    rw [Bool.toNat_false]
    omega
  | true =>
    rw [Bool.toNat_true]
    rcases same.token completed wake with old | fewer
    · rw [old, Bool.toNat_true]
      omega
    · omega

theorem remaining_le : remaining after ≤ remaining before :=
  Nat.add_le_add (Finset.card_le_card same.openFutures_subset) (same.tokens_le completed)

theorem remaining_lt_of_done {future : Nat} (launched : future < before.futures.length)
    (open_ : before.isDone future = false) (done : after.isDone future = true) :
    remaining after < remaining before :=
  Nat.add_lt_add_of_lt_of_le (same.openFutures_lt launched open_ done) (same.tokens_le completed)

theorem remaining_cleared (token : after.wake = true) :
    remaining { after with wake := false } < remaining before := by
  have fewer := Finset.card_le_card same.openFutures_subset
  have returned := Finset.card_le_card same.unreturned_subset
  change (openFutures after).card + (2 * (unreturned after).card + 0) < remaining before
  unfold remaining
  rcases same.token completed token with old | lower
  · rw [old, Bool.toNat_true]
    omega
  · omega

end SameRule

/-! ## A wait ends -/

theorem owes_cases {i : Nat} {action : EnvAction} (owed : state.owes i = some action) :
    (action = .complete i ∧ state.isDone i = false) ∨
      (action = .signal i ∧ state.isDone i = true ∧ i ∉ state.returned) := by
  unfold owes at owed
  split_ifs at owed with open_ returned
  · exact .inl ⟨(Option.some.inj owed).symm, open_⟩
  · exact .inr ⟨(Option.some.inj owed).symm, by simpa using open_, returned⟩

variable (walker) in
/-- With enough fuel the wait ends with a token, always in the same state. -/
def Wakes (state : Walk) : Prop :=
  ∃ woken, woken.wake = true ∧
    ∃ enough, ∀ fuel ≥ enough, walker.waitUntil wake fuel state = (.ready, woken)

section
variable (unfailing : Unfailing walker.schedule)
include unfailing

/-- With a token in the channel the wait is over. -/
theorem waitUntil_awake (token : state.wake = true) : Wakes walker state := by
  refine ⟨{ state with waited := state.waited + 1 }, token, 1, fun fuel positive => ?_⟩
  obtain ⟨fuel, rfl⟩ := Nat.exists_eq_add_of_le' positive
  rw [waitUntil]
  cases chosen : walker.schedule.waiting state.waited with
  | error err => exact absurd chosen (unfailing _ _)
  | ok choice => exact if_pos token

/-- Otherwise a callback makes its next step, as long as one has not returned. -/
theorem waitUntil_asleep (asleep : state.wake = false) {future : Nat}
    (launched : future < state.futures.length) (running : future ∉ state.returned) :
    ∃ i action, i < state.futures.length ∧ state.owes i = some action ∧
      ∀ fuel, walker.waitUntil wake (fuel + 1) state =
        walker.waitUntil wake fuel
          (applyAction { state with waited := state.waited + 1 } action) := by
  have some_owed : ∃ action, action ∈ state.owed := by
    have owes : ∃ action, state.owes future = some action := by
      unfold owes
      rw [if_pos running]
      split_ifs
      · exact ⟨_, rfl⟩
      · exact ⟨_, rfl⟩
    obtain ⟨action, owes⟩ := owes
    exact ⟨action, mem_filterMap.mpr ⟨future, mem_range.mpr launched, owes⟩⟩
  obtain ⟨action, member⟩ := some_owed
  cases chosen : walker.schedule.waiting state.waited with
  | error err => exact absurd chosen (unfailing _ _)
  | ok choice =>
    have inside : choice % state.owed.length < state.owed.length :=
      Nat.mod_lt _ (length_pos_of_mem member)
    have found := getElem?_eq_getElem inside
    obtain ⟨i, below, owes⟩ := mem_filterMap.mp (mem_of_getElem? found)
    refine ⟨i, _, mem_range.mp below, owes, fun fuel => ?_⟩
    rw [waitUntil, chosen]
    dsimp only
    rw [if_neg (by rw [asleep]; exact Bool.false_ne_true)]
    have same : ({ state with waited := state.waited + 1 } : Walk).owed = state.owed := rfl
    rw [same, found]

/-- While a launched callback has not returned, the wait ends with a token: each step before
it resolves one more future. -/
theorem waitUntil_ready {future : Nat} (open_ : Nat) (bound : (openFutures state).card = open_)
    (launched : future < state.futures.length) (running : future ∉ state.returned) :
    Wakes walker state := by
  induction open_ using Nat.strong_induction_on generalizing state with
  | _ open_ fewer =>
  cases asleep : state.wake with
  | true => exact waitUntil_awake unfailing asleep
  | false =>
    obtain ⟨i, action, below, owes, next⟩ := waitUntil_asleep unfailing asleep launched running
    have same : SameRule state (applyAction { state with waited := state.waited + 1 } action) :=
      sameRule_of_moved ((waited_moved state).trans (applyAction_moved _ action))
    have later : Wakes walker (applyAction { state with waited := state.waited + 1 } action) := by
      rcases owes_cases owes with ⟨rfl, open_⟩ | ⟨rfl, done, running⟩
      · have done : (applyAction { state with waited := state.waited + 1 } (.complete i)).isDone i =
            true := by
          rw [complete_isDone]
          simp [below]
        exact fewer _ (bound ▸ same.openFutures_lt below open_ done) rfl
          (same.length ▸ launched) running
      · refine waitUntil_awake unfailing ?_
        rw [applyAction, if_pos ⟨done, running⟩]
    obtain ⟨woken, token, enough, ready⟩ := later
    refine ⟨woken, token, enough + 1, fun fuel le => ?_⟩
    obtain ⟨fuel, rfl⟩ := Nat.exists_eq_add_of_le' (Nat.le_trans (Nat.le_add_left 1 enough) le)
    rw [next fuel]
    exact ready fuel (Nat.le_of_succ_le_succ le)

end

/-! ## The walk comes to an end -/

variable (walker) in
/-- With enough fuel the suspended walk returns a result. -/
def Returns (suspension : Suspension) (state : Walk) : Prop :=
  ∃ enough, ∀ fuel ≥ enough,
    (walker.resumeExchangeWithRules fuel suspension state).1.isSome = true

/-- A walk returns when its next turn does, or leads to a walk that returns. -/
theorem returns_of_turn
    (turned : match walker.turn suspension state with
      | (.result _, _) => True
      | (.finish exchange, _) => exchange.future = none
      | (.wait, after) => ∃ woken, (∃ enough, ∀ fuel ≥ enough,
            walker.waitUntil wake fuel after = (.ready, woken)) ∧
          Returns walker suspension { woken with wake := false }
      | (.again suspension', after) => Returns walker suspension' after) :
    Returns walker suspension state := by
  -- one unit of fuel for the turn, the rest for what follows it
  have step (enough : Nat) (next : ∀ fuel ≥ enough,
      (walker.resumeExchangeWithRules (fuel + 1) suspension state).1.isSome = true) :
      Returns walker suspension state := by
    refine ⟨enough + 1, fun fuel le => ?_⟩
    obtain ⟨fuel, rfl⟩ := Nat.exists_eq_add_of_le' (Nat.le_trans (Nat.le_add_left 1 enough) le)
    exact next fuel (Nat.le_of_succ_le_succ le)
  simp only [resumeExchangeWithRules] at step
  generalize walker.turn suspension state = outcome at *
  obtain ⟨outcome, after⟩ := outcome
  cases outcome with
  | result result => exact step 0 fun _ _ => rfl
  | finish exchange =>
    refine step 0 fun fuel _ => ?_
    rw [finishPendingExchange_result fuel turned after]
    rfl
  | again suspension' =>
    obtain ⟨enough, returns⟩ := turned
    exact step enough returns
  | wait =>
    obtain ⟨woken, ⟨awake, result⟩, enough, returns⟩ := turned
    refine step (max awake enough) fun fuel le => ?_
    dsimp only
    rw [result fuel (Nat.le_trans (Nat.le_max_left _ _) le)]
    exact returns fuel (Nat.le_trans (Nat.le_max_right _ _) le)

theorem pending_returns {exchange : PendingExchange}
    (suspended : Suspended walker metadata target (.pending exchange) state) :
    Returns walker (.pending exchange) state := by
  have observed := (walker.arrive_moved .rule state).observed.trans
    (walker.settleDNSFutures_observed _)
  have noneArmed := (congrArg armedRules observed.control).trans suspended.1
  apply returns_of_turn
  rw [turn, walker.sweepArmedDNSRules_nil noneArmed]
  exact suspended.2.1

/-- A walk that waits for a future returns: by induction on the rules behind it, on what is left
to happen, and on whether the future is resolved and the next turn goes on. -/
theorem await_returns (undisturbed : walker.schedule.Undisturbed)
    (unfailing : Unfailing walker.schedule) (ordered : Ordered walker.rules) :
    ∀ (left steps : Nat) (future : Nat) (state : Walk),
      walker.rules.length - state.ruleIndex = left →
      2 * remaining state + (state.isDone future).toNat = steps →
      Suspended walker metadata target (.await future) state →
      Returns walker (.await future) state := by
  intro left
  induction left using Nat.strong_induction_on with
  | _ left fewerRules =>
  intro steps
  induction steps using Nat.strong_induction_on with
  | _ steps fewerSteps =>
  intro future state leftEq stepsEq suspended
  have ⟨inside, launched, seq, simulates, _⟩ := suspended
  have turned := turn_simulates undisturbed ordered suspended
  apply returns_of_turn
  generalize walker.turn (.await future) state = outcome at *
  obtain ⟨outcome, after⟩ := outcome
  cases outcome with
  | result result => trivial
  | finish exchange => exact turned.1
  | wait =>
    obtain ⟨stillSuspended, sameRule, other, isAwait, stillOpen⟩ := turned
    obtain rfl : future = other := Suspension.await.inj isAwait
    have completed := sameRule.progress.completed simulates.completed
    -- the callback of an open future has not returned
    have running : future ∉ after.returned := fun returned =>
      Bool.false_ne_true (stillOpen.symm.trans (completed future returned))
    obtain ⟨woken, token, ready⟩ :=
      waitUntil_ready unfailing _ rfl (sameRule.length ▸ launched) running
    obtain ⟨enough, ends⟩ := ready
    have moved : Moved after woken := by
      have moved := walker.waitUntil_moved wake enough after
      rwa [ends enough (Nat.le_refl _)] at moved
    have same := sameRule.trans (sameRule_of_moved moved)
    have lower := same.remaining_cleared (moved.progress.completed completed) token
    refine ⟨woken, ⟨enough, ends⟩, fewerSteps _ ?_ future _ ?_ rfl
      (stillSuspended.moved (moved.trans (cleared_moved woken)))⟩
    · have flag := Bool.toNat_le (({ woken with wake := false } : Walk).isDone future)
      omega
    · rw [← leftEq]
      exact congrArg (walker.rules.length - ·) same.ruleIndex
  | again suspension' =>
    obtain ⟨suspended', progress⟩ := turned
    cases suspension' with
    | drain => exact suspended'.elim
    | pending exchange => exact pending_returns suspended'
    | await other =>
      have further : after.ruleIndex ≤ walker.rules.length := suspended'.1
      obtain ⟨otherOpen, lower | ⟨same, resolved⟩⟩ := progress other rfl
      · exact fewerRules _ (by omega) _ other after rfl rfl suspended'
      · have completed := same.progress.completed simulates.completed
        refine fewerSteps _ ?_ other after (same.ruleIndex ▸ leftEq) rfl suspended'
        rw [otherOpen, Bool.toNat_false]
        -- the future was resolved before the turn, or in it
        cases before : state.isDone future with
        | true =>
          have := same.remaining_le completed
          rw [before, Bool.toNat_true] at stepsEq
          omega
        | false =>
          have := same.remaining_lt_of_done completed launched before (resolved future rfl)
          omega

/-! ## The whole exchange -/

theorem initial_simulates (options : DNSQueryOptions) :
    Simulates walker metadata 0 { effectiveOptions := options, metadata := metadata }
      { options := options } where
  filed := ⟨by simp, by simp, by simp, by simp, by simp, by simp⟩
  noneArmed := rfl
  noTerminal := rfl
  query := rfl
  ignored := rfl
  options := rfl
  launched := rfl
  launchedLe := Nat.le_refl 0
  anonymousLaunched := by simp
  anonymous := rfl
  namedAll := by simp
  named _ := rfl
  completed _ member := nomatch member

variable (walker metadata) in
/-- The first pass over the rules ends the exchange or suspends it. -/
theorem exchangeWithRules_cases (undisturbed : walker.schedule.Undisturbed)
    (ordered : Ordered walker.rules) (options : DNSQueryOptions) :
    let target := reference walker metadata walker.rules { options := options }
    (∀ fuel, (walker.exchangeWithRules fuel metadata options).1 = some target) ∨
      ∃ suspension state, (∀ fuel, (walker.exchangeWithRules fuel metadata options).1 =
          (walker.resumeExchangeWithRules fuel suspension state).1) ∧
        Suspended walker metadata target suspension state := by
  intro target
  have start : Simulates walker metadata 0 { effectiveOptions := options, metadata := metadata }
    { options := options } := initial_simulates options
  have walked : WalkSimulates walker metadata target
      { effectiveOptions := options, metadata := metadata }
      (walker.walkDNSRules { effectiveOptions := options, metadata := metadata }) :=
    walkFrom_simulates undisturbed ordered walker.rules start (Nat.zero_le _) rfl rfl
  unfold exchangeWithRules
  generalize walker.walkDNSRules { effectiveOptions := options, metadata := metadata } = outcome at *
  obtain ⟨result | suspension, state⟩ := outcome
  · exact .inl fun _ => congrArg some walked
  · exact .inr ⟨suspension, state, fun _ => rfl, walked.1⟩

variable (walker metadata) in
theorem exchangeWithRules_eq_reference (undisturbed : walker.schedule.Undisturbed)
    (unfailing : Unfailing walker.schedule) (ordered : Ordered walker.rules)
    (options : DNSQueryOptions) :
    let reading := reference walker metadata walker.rules { options := options }
    (∀ fuel result, (walker.exchangeWithRules fuel metadata options).1 = some result →
      result = reading) ∧
    ∃ enough, ∀ fuel ≥ enough,
      (walker.exchangeWithRules fuel metadata options).1 = some reading := by
  intro reading
  have sound : ∀ fuel result, (walker.exchangeWithRules fuel metadata options).1 = some result →
      result = reading := by
    intro fuel result returned
    rcases exchangeWithRules_cases walker metadata undisturbed ordered options with
      direct | ⟨suspension, state, resumes, suspended⟩
    · exact Option.some.inj (returned.symm.trans (direct fuel))
    · exact resumeExchangeWithRules_sound undisturbed unfailing ordered fuel suspended result
        ((resumes fuel).symm.trans returned)
  refine ⟨sound, ?_⟩
  rcases exchangeWithRules_cases walker metadata undisturbed ordered options with
    direct | ⟨suspension, state, resumes, suspended⟩
  · exact ⟨0, fun fuel _ => direct fuel⟩
  · have returns : Returns walker suspension state := by
      cases suspension with
      | drain => exact suspended.elim
      | pending exchange => exact pending_returns suspended
      | await future =>
        exact await_returns undisturbed unfailing ordered _ _ future state rfl rfl suspended
    obtain ⟨enough, returns⟩ := returns
    refine ⟨enough, fun fuel le => ?_⟩
    obtain ⟨result, returned⟩ := Option.isSome_iff_exists.mp (returns fuel le)
    rw [← resumes fuel] at returned
    rw [returned, sound fuel result returned]

end Runs

/-- For a rule list without race rules, whatever the order in which the callbacks of the queries
run: `exchangeWithRules` returns, and what it returns is the result of the sequential
reading. -/
theorem exchangeWithRules_eq_sequential (walker : Walker) (ordered : Ordered walker.rules)
    (metadata : InboundContext) (options : DNSQueryOptions) (schedule : Schedule)
    (undisturbed : schedule.Undisturbed) (unfailing : Unfailing schedule) :
    let run := fun fuel =>
      (exchangeWithRules { walker with schedule := schedule } fuel metadata options).1
    let reading := sequential walker.router walker.client walker.message walker.allowFakeIP metadata
      walker.rules { options := options }
    (∀ fuel result, run fuel = some result → result = reading) ∧
    ∃ enough, ∀ fuel ≥ enough, run fuel = some reading :=
  exchangeWithRules_eq_reference { walker with schedule := schedule } metadata undisturbed unfailing
    ordered options

/-- `evaluate` on server `b` under the tag `u`. -/
def laterRule : DNSRule where
  tree := .default { items := [fun input => input.domain == "example.org"] }
  action := .evaluate "b" "u" false {}

/-- Two queries, and a rule that responds with the answer to the first. -/
def twoQueries (schedule : Schedule) : Walker :=
  { exampleWalker schedule with rules := [evaluateRule, laterRule, respondRule, fallbackRule] }

/-- While the walk waits the callback of the latest query runs first, and wakes it in vain. -/
def latestFirst : Schedule where
  running _ _ := []
  waiting _ := .ok 1

theorem twoQueries_ordered (schedule : Schedule) : Ordered (twoQueries schedule).rules where
  plain := by simp [twoQueries, evaluateRule, laterRule, respondRule, fallbackRule]
  distinct := distinctTags_of_pairwise (by
    simp [twoQueries, EvaluatesTo, evaluateRule, laterRule, respondRule, fallbackRule])
  reads := by
    have domain : RuleItem.Reads false fun input => input.domain == "example.org" := by
      intro input other same
      simp [same.query]
    have rcode : RuleItem.Reads true fun input =>
        input.dnsResponse.any fun response => response.rcode == 0 := by
      intro input other same
      simp [same.response rfl]
    intro rule member leaf below
    simp only [twoQueries, mem_cons, not_mem_nil, or_false] at member
    rcases member with rfl | rfl | rfl | rfl <;>
      simp only [evaluateRule, laterRule, respondRule, fallbackRule, RuleTree.leaves,
        mem_singleton] at below <;> subst below <;>
      exact ⟨⟨by simp [domain, rcode], by simp, by simp, by simp, by simp, by simp⟩, by simp⟩
  respond := by
    simp [twoQueries, evaluateRule, laterRule, respondRule, fallbackRule,
      DNSRuleTree.matchResponseTag]

/-- With the completions in reverse order the response of server `a` is returned, as in the
sequential reading. -/
theorem latestFirst_returns_reading :
    Ordered (twoQueries latestFirst).rules ∧ latestFirst.Undisturbed ∧ Unfailing latestFirst ∧
    ∃ enough, ∀ fuel ≥ enough,
      ((twoQueries latestFirst).exchangeWithRules fuel exampleQuery {}).1 =
        some { response := some positiveAnswer, transport := some ⟨"a", false⟩ } := by
  have undisturbed : latestFirst.Undisturbed := fun _ _ member => by cases member
  have unfailing : Unfailing latestFirst := fun _ _ same => by cases same
  have returns := (exchangeWithRules_eq_sequential (twoQueries latestFirst)
    (twoQueries_ordered latestFirst) exampleQuery {} latestFirst undisturbed unfailing).2
  have reading : sequential (twoQueries latestFirst).router (twoQueries latestFirst).client
      question true exampleQuery (twoQueries latestFirst).rules { options := {} } =
        { response := some positiveAnswer, transport := some ⟨"a", false⟩ } := by
    decide +kernel
  exact ⟨twoQueries_ordered latestFirst, undisturbed, unfailing, reading ▸ returns⟩

end AmneziaBox.Guarantees.CompletionOrder
