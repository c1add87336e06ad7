import AmneziaBox.Source.DNS.RuleWalk

/-!
# What looking at the futures can change

Every inspection of a future lets the environment act first. What the environment
does is complete futures and offer tokens (`Moved`); when its schedule completes
nothing at an inspection, an inspection leaves the futures alone (`Inspected`).
`settleDNSFutures` also writes the named responses (`Observed`). The lemmas say this
of each function that only looks.
-/
namespace AmneziaBox.Source.DNS
open Adapter Rule List

/-- No future completes at an inspection: only while a query is launched, between two
rules or while the walk waits. -/
def Schedule.Undisturbed (schedule : Schedule) : Prop :=
  ∀ n future, .complete future ∉ schedule.running .inspect n

/-- The future, completed when `completes`. -/
def Future.completeIf (completes : Bool) (future : Future) : Future :=
  { future with done := future.done || completes }

@[simp] theorem Future.completeIf_false (future : Future) : future.completeIf false = future := by
  simp [Future.completeIf]

namespace Walk

/-- A callback returns after its future is done. -/
def Completed (state : Walk) : Prop := ∀ i ∈ state.returned, state.isDone i = true

/-- What the callbacks have done: futures got done, callbacks returned, and a new token is the
one of a callback that has returned. -/
structure Progress (before after : Walk) : Prop where
  done : ∀ i, before.isDone i = true → after.isDone i = true
  returned : ∀ i ∈ before.returned, i ∈ after.returned
  token : after.wake = true → before.wake = true ∨ ∃ i ∈ after.returned, i ∉ before.returned
  completed : before.Completed → after.Completed

/-- The same walk after the environment has acted. -/
structure Moved (before after : Walk) : Prop where
  progress : Progress before after
  control : after.toWalkControl = before.toWalkControl
  namedResponses : after.namedResponses = before.namedResponses
  namedTransports : after.namedTransports = before.namedTransports
  futures : ∃ completes : Nat → Bool, ∀ i,
    after.futures[i]? = before.futures[i]?.map (Future.completeIf (completes i))
  events : after.events = before.events

/-- The environment has acted at inspections. -/
structure Inspected (schedule : Schedule) (before after : Walk) : Prop extends Moved before after where
  undisturbed : schedule.Undisturbed → after.futures = before.futures

/-- The same walk after futures were looked at and settled. -/
structure Observed (before after : Walk) : Prop where
  control : after.toWalkControl = before.toWalkControl
  progress : Progress before after
  events : after.events = before.events

namespace Progress
variable {before middle after : Walk}

/-- No callback returns; the token may be taken. -/
theorem of_done (done : ∀ i, before.isDone i = true → after.isDone i = true)
    (returned : after.returned = before.returned) (wake : after.wake = true → before.wake = true) :
    Progress before after :=
  ⟨done, fun _ member => returned ▸ member, fun now => .inl (wake now),
    fun completed i member => done i (completed i (returned ▸ member))⟩

theorem refl (state : Walk) : Progress state state := of_done (fun _ => id) rfl id

theorem trans (first : Progress before middle) (second : Progress middle after) :
    Progress before after := by
  refine ⟨fun i done => second.done i (first.done i done),
    fun i member => second.returned i (first.returned i member), fun now => ?_,
    fun completed => second.completed (first.completed completed)⟩
  rcases second.token now with token | ⟨i, later, new⟩
  · rcases first.token token with token | ⟨i, later, new⟩
    · exact .inl token
    · exact .inr ⟨i, second.returned i later, new⟩
  · exact .inr ⟨i, later, fun old => new (first.returned i old)⟩

end Progress

namespace Moved
variable {before middle after : Walk}

/-- A change of the counters and the token only. -/
theorem of_futures_eq (returned : after.returned = before.returned)
    (wake : after.wake = true → before.wake = true)
    (control : after.toWalkControl = before.toWalkControl)
    (namedResponses : after.namedResponses = before.namedResponses)
    (namedTransports : after.namedTransports = before.namedTransports)
    (futures : after.futures = before.futures)
    (events : after.events = before.events) :
    Moved before after :=
  ⟨.of_done (fun i done => by rwa [Walk.isDone, futures]) returned wake, control,
    namedResponses, namedTransports,
    ⟨fun _ => false, fun i => by cases found : before.futures[i]? <;> simp [futures, found]⟩, events⟩

theorem refl (state : Walk) : Moved state state :=
  of_futures_eq rfl id rfl rfl rfl rfl rfl

theorem trans (first : Moved before middle) (second : Moved middle after) : Moved before after := by
  obtain ⟨progress, control, responses, transports, ⟨completes, futures⟩, events⟩ := first
  obtain ⟨progress', control', responses', transports', ⟨completes', futures'⟩, events'⟩ := second
  refine ⟨progress.trans progress', control'.trans control, responses'.trans responses,
    transports'.trans transports,
    ⟨fun i => completes i || completes' i, fun i => ?_⟩, events'.trans events⟩
  rw [futures', futures, Option.map_map]
  congr 1
  funext future
  simp [Future.completeIf, Bool.or_assoc]

section
variable (moved : Moved before after)
include moved

theorem length : after.futures.length = before.futures.length := by
  obtain ⟨completes, futures⟩ := moved.futures
  have same : ∀ i, after.futures[i]? = none ↔ before.futures[i]? = none := fun i => by
    rw [futures, Option.map_eq_none_iff]
  simp only [getElem?_eq_none_iff] at same
  exact Nat.le_antisymm ((same _).mpr (Nat.le_refl _)) ((same _).mp (Nat.le_refl _))

theorem isDone {i : Nat} (done : before.isDone i = true) : after.isDone i = true :=
  moved.progress.done i done

theorem answerOf (i : Nat) : after.answerOf i = before.answerOf i := by
  obtain ⟨completes, futures⟩ := moved.futures
  rw [Walk.answerOf, Walk.answerOf, futures]
  cases before.futures[i]? with
  | none => rfl
  | some future =>
    obtain ⟨tag, transport, answer, done, settled⟩ := future
    cases answer <;> rfl

theorem transportOf (i : Nat) :
    after.transportOf i = before.transportOf i := by
  obtain ⟨completes, futures⟩ := moved.futures
  rw [Walk.transportOf, Walk.transportOf, futures, Option.map_map]
  rfl

theorem observed : Observed before after :=
  ⟨moved.control, moved.progress, moved.events⟩

end

end Moved

namespace Observed
variable {before middle after : Walk}

theorem refl (state : Walk) : Observed state state := (Moved.refl state).observed

theorem trans (first : Observed before middle) (second : Observed middle after) :
    Observed before after :=
  ⟨second.control.trans first.control, first.progress.trans second.progress,
    second.events.trans first.events⟩

theorem done (observed : Observed before after) (i : Nat) (done : before.isDone i = true) :
    after.isDone i = true :=
  observed.progress.done i done

end Observed

namespace Inspected
variable {schedule : Schedule} {before middle after : Walk}

theorem refl (schedule : Schedule) (state : Walk) : Inspected schedule state state :=
  ⟨.refl state, fun _ => rfl⟩

theorem trans (first : Inspected schedule before middle)
    (second : Inspected schedule middle after) : Inspected schedule before after :=
  ⟨first.toMoved.trans second.toMoved, fun undisturbed =>
    (second.undisturbed undisturbed).trans (first.undisturbed undisturbed)⟩

end Inspected

/-! ## The environment -/

@[simp] theorem markSettled_isDone (state : Walk) (index i : Nat) :
    (state.markSettled index).isDone i = state.isDone i := by
  simp only [markSettled, isDone, getElem?_modify]
  by_cases chosen : index = i <;> cases state.futures[i]? <;> simp [chosen]

theorem complete_isDone (state : Walk) (future i : Nat) :
    (state.applyAction (.complete future)).isDone i =
      (state.isDone i || (decide (future = i) && decide (i < state.futures.length))) := by
  simp only [applyAction, isDone, getElem?_modify]
  cases found : state.futures[i]? with
  | none => simp [List.getElem?_eq_none_iff.mp found]
  | some value =>
    have launched : i < state.futures.length := (List.getElem?_eq_some_iff.mp found).1
    by_cases chosen : future = i <;> simp [chosen, launched]

theorem applyAction_progress (state : Walk) (action : EnvAction) :
    Progress state (state.applyAction action) := by
  cases action with
  | complete future =>
    have monotone i (done : state.isDone i = true) :
        (state.applyAction (.complete future)).isDone i = true := by
      rw [complete_isDone, done, Bool.true_or]
    exact .of_done monotone rfl id
  | signal future =>
    unfold applyAction
    dsimp only
    split_ifs with offers
    · refine ⟨fun _ => id, fun _ => mem_cons_of_mem _, fun _ => .inr ⟨future, mem_cons_self, offers.2⟩,
        fun completed i member => ?_⟩
      rcases mem_cons.mp member with rfl | before
      · exact offers.1
      · exact completed i before
    · exact .refl state

theorem applyAction_moved (state : Walk) (action : EnvAction) :
    Moved state (state.applyAction action) := by
  have progress := applyAction_progress state action
  cases action with
  | signal future =>
    unfold applyAction at progress ⊢
    dsimp only at progress ⊢
    split_ifs at progress ⊢ with offers
    · exact ⟨progress, rfl, rfl, rfl, (Moved.refl state).futures, rfl⟩
    · exact .refl state
  | complete future =>
    refine ⟨progress, rfl, rfl, rfl, ⟨fun i => decide (future = i), fun i => ?_⟩, rfl⟩
    simp only [applyAction, getElem?_modify]
    by_cases chosen : future = i <;> cases state.futures[i]? <;> simp [chosen, Future.completeIf]

theorem actions_moved (actions : List EnvAction) (state : Walk) :
    Moved state (actions.foldl applyAction state) := by
  induction actions generalizing state with
  | nil => exact .refl state
  | cons action rest ih => exact (applyAction_moved state action).trans (ih _)

variable {actions : List EnvAction}

/-- Tokens alone leave the futures alone. -/
theorem actions_futures (tokens : ∀ future, .complete future ∉ actions) (state : Walk) :
    (actions.foldl applyAction state).futures = state.futures := by
  induction actions generalizing state with
  | nil => rfl
  | cons action rest ih =>
    rw [foldl_cons, ih fun future later => tokens future (mem_cons_of_mem _ later)]
    cases action with
    | signal future =>
      unfold applyAction
      dsimp only
      split_ifs <;> rfl
    | complete future => exact absurd (mem_cons_self ..) (tokens future)

end Walk

namespace Walker
open Walk
variable (walker : Walker)

theorem arrive_moved (point : Point) (state : Walk) : Moved state (walker.arrive point state) := by
  have counted : Moved state { state with ran := state.ran + 1 } := .of_futures_eq rfl id rfl rfl rfl rfl rfl
  exact counted.trans (actions_moved _ _)

theorem arrive_inspected (state : Walk) :
    Inspected walker.schedule state (walker.arrive .inspect state) :=
  ⟨walker.arrive_moved .inspect state, fun undisturbed => actions_futures (undisturbed _) _⟩

theorem waited_moved (state : Walk) : Moved state { state with waited := state.waited + 1 } :=
  .of_futures_eq rfl id rfl rfl rfl rfl rfl

theorem waitUntil_moved (ready : Walk → Bool) (fuel : Nat) (state : Walk) :
    Moved state (walker.waitUntil ready fuel state).2 := by
  induction fuel generalizing state with
  | zero => exact .refl state
  | succ fuel ih =>
    rw [waitUntil]
    split
    · exact .refl state
    · dsimp only
      split
      · exact waited_moved state
      · split
        · exact waited_moved state
        · exact ((waited_moved state).trans (applyAction_moved _ _)).trans (ih _)

/-! ## Inspections -/

variable (future : Nat)

theorem resolved_inspected (state : Walk) :
    Inspected walker.schedule state (walker.resolved future state).2 :=
  walker.arrive_inspected state

theorem resolved_fst (state : Walk) :
    (walker.resolved future state).1 = (walker.resolved future state).2.isDone future := rfl

theorem view_inspected (state : Walk) :
    Inspected walker.schedule state (walker.view future state).2 :=
  walker.arrive_inspected state

theorem view_fst (state : Walk) :
    (walker.view future state).1 =
      if (walker.view future state).2.isDone future then state.answerOf future else none := by
  rw [← (walker.view_inspected future state).answerOf future]
  rfl

theorem anonymousResponse_inspected (state : Walk) :
    Inspected walker.schedule state (walker.anonymousResponse state).2 := by
  unfold anonymousResponse
  split
  · exact .refl _ state
  · exact walker.view_inspected _ state

theorem allResolved_inspected (futures : List Nat) (state : Walk) :
    Inspected walker.schedule state (walker.allResolved futures state).2 := by
  induction futures generalizing state with
  | nil => exact .refl _ state
  | cons future rest ih =>
    have first := walker.resolved_inspected future state
    unfold allResolved
    dsimp only
    split
    · exact first.trans (ih _)
    · exact first

variable {state : Walk}

theorem isDone_of_allResolved {futures : List Nat}
    (all : (walker.allResolved futures state).1 = true) :
    ∀ future ∈ futures, (walker.allResolved futures state).2.isDone future = true := by
  induction futures generalizing state with
  | nil => simp
  | cons first rest ih =>
    unfold allResolved at all ⊢
    dsimp only at all ⊢
    split at all
    · rename_i resolved
      simp only [resolved, if_true]
      intro future member
      rcases mem_cons.mp member with rfl | later
      · exact (walker.allResolved_inspected rest _).isDone resolved
      · exact ih all future later
    · cases all

theorem armedResponse_inspected (armed : ArmedRule) (state : Walk) :
    Inspected walker.schedule state (walker.armedResponse armed state).2 := by
  unfold armedResponse
  split
  · split
    · exact walker.view_inspected _ state
    · exact .refl _ state
  · exact walker.anonymousResponse_inspected state

theorem respondArmed_inspected (armed : ArmedRule) (state : Walk) :
    Inspected walker.schedule state (walker.respondArmed armed state).2 := by
  unfold respondArmed
  dsimp only
  split
  · exact .refl _ state
  · split
    · exact walker.arrive_inspected state
    · exact walker.arrive_inspected state
    · exact .refl _ state

theorem commitArmed_inspected (armed : ArmedRule) (state : Walk) :
    Inspected walker.schedule state (walker.commitArmed armed state).2 := by
  unfold commitArmed
  split
  · exact walker.respondArmed_inspected armed state
  · split <;> exact .refl _ state
  all_goals exact .refl _ state

variable (tags : List String)

theorem pendingTags_inspected (state : Walk) :
    Inspected walker.schedule state (walker.pendingTags tags state).2 := by
  induction tags generalizing state with
  | nil => exact .refl _ state
  | cons tag rest ih =>
    unfold pendingTags
    split
    · exact ih state
    · rename_i future _
      exact (walker.resolved_inspected future state).trans (ih _)

variable {future : Nat}

/-- A future that is not listed as pending is done. -/
theorem pendingTags_complete {tags : List String} {tag : String} (member : tag ∈ tags)
    (named : state.namedFutures tag = some future) :
    future ∈ (walker.pendingTags tags state).1 ∨
      (walker.pendingTags tags state).2.isDone future = true := by
  induction tags generalizing state with
  | nil => cases member
  | cons first rest ih =>
    unfold pendingTags
    cases launched : state.namedFutures first with
    | none =>
      rcases mem_cons.mp member with rfl | later
      · simp [named] at launched
      · exact ih later named
    | some other =>
      dsimp only
      have inspected := walker.resolved_inspected other state
      have rest_inspected := walker.pendingTags_inspected rest (walker.resolved other state).2
      rcases mem_cons.mp member with rfl | later
      · obtain rfl : other = future := Option.some.inj (launched.symm.trans named)
        by_cases resolved : (walker.resolved other state).1 = true
        · exact .inr (rest_inspected.isDone resolved)
        · exact .inl (by simp [resolved])
      · have still : (walker.resolved other state).2.namedFutures tag = some future := by
          rw [inspected.control, named]
        rcases ih later still with pending | done
        · left
          split
          · exact pending
          · exact mem_cons_of_mem _ pending
        · exact .inr done

theorem pendingAnonymous_inspected (anonymous : Option Nat) (state : Walk) :
    Inspected walker.schedule state (walker.pendingAnonymous anonymous state).2 := by
  unfold pendingAnonymous
  split
  · exact .refl _ state
  · exact walker.arrive_inspected state

theorem pendingAnonymous_complete (state : Walk) {anonymous : Option Nat}
    (bound : anonymous = some future) :
    future ∈ (walker.pendingAnonymous anonymous state).1 ∨
      (walker.pendingAnonymous anonymous state).2.isDone future = true := by
  subst bound
  unfold pendingAnonymous
  by_cases resolved : (walker.resolved future state).1 = true
  · exact .inr resolved
  · simp [resolved]

theorem newArmedRule_inspected (rule : DNSRule) (state : Walk) :
    Inspected walker.schedule state (walker.newArmedRule rule state).2 :=
  (walker.pendingTags_inspected _ state).trans (walker.pendingAnonymous_inspected _ _)

/-- The rule is armed at its position, with the options in force there. -/
theorem newArmedRule_fields (rule : DNSRule) (state : Walk) :
    (walker.newArmedRule rule state).1.ruleIndex = state.ruleIndex ∧
      (walker.newArmedRule rule state).1.rule = rule ∧
      (walker.newArmedRule rule state).1.options = state.effectiveOptions := by
  have control := (walker.newArmedRule_inspected rule state).control
  exact ⟨congrArg WalkControl.ruleIndex control, rfl, congrArg WalkControl.effectiveOptions control⟩

/-- A future that the new armed rule does not wait for is done. -/
theorem newArmedRule_complete (rule : DNSRule) (state : Walk) :
    ∀ future ∈ (walker.newArmedRule rule state).2.boundTo (walker.newArmedRule rule state).1,
      future ∈ (walker.newArmedRule rule state).1.futures ∨
        (walker.newArmedRule rule state).2.isDone future = true := by
  have inspected := walker.newArmedRule_inspected rule state
  have last := walker.pendingAnonymous_inspected
    (walker.newArmedRule rule state).1.anonymousFuture
    (walker.pendingTags rule.tree.matchResponseTags state).2
  intro future member
  rcases mem_append.mp member with tagged | anonymous
  · obtain ⟨tag, listed, named⟩ := mem_filterMap.mp tagged
    rw [inspected.control] at named
    rcases walker.pendingTags_complete listed named with pending | done
    · exact .inl (mem_append_left _ pending)
    · exact .inr (last.isDone done)
  · rw [Option.mem_toList] at anonymous
    rcases walker.pendingAnonymous_complete
      (walker.pendingTags rule.tree.matchResponseTags state).2 anonymous with pending | done
    · exact .inl (mem_append_right _ pending)
    · exact .inr done

theorem awaitTags_inspected (state : Walk) :
    Inspected walker.schedule state (walker.awaitTags tags state).2 := by
  induction tags generalizing state with
  | nil => exact .refl _ state
  | cons tag rest ih =>
    unfold awaitTags
    split
    · exact ih state
    · rename_i future _
      dsimp only
      split
      · exact (walker.resolved_inspected future state).trans (ih _)
      · exact walker.resolved_inspected future state

/-- A rule that has no tag to wait for sees all futures of its tags resolved. -/
theorem awaitTags_none (state : Walk) (none : (walker.awaitTags tags state).1 = none) :
    ∀ tag ∈ tags, ∀ i, state.namedFutures tag = some i →
      (walker.awaitTags tags state).2.isDone i = true := by
  induction tags generalizing state with
  | nil => simp
  | cons first rest ih =>
    unfold awaitTags at none ⊢
    intro tag member i named
    cases launched : state.namedFutures first with
    | none =>
      simp only [launched] at none ⊢
      rcases mem_cons.mp member with rfl | later
      · rw [launched] at named
        cases named
      · exact ih state none tag later i named
    | some future =>
      have inspected := walker.resolved_inspected future state
      simp only [launched] at none ⊢
      split at none
      · rename_i resolved
        rw [if_pos resolved]
        rcases mem_cons.mp member with rfl | later
        · cases launched.symm.trans named
          exact (walker.awaitTags_inspected rest _).isDone resolved
        · exact ih _ none tag later i (by rw [inspected.control]; exact named)
      · cases none

theorem awaitTags_some (state : Walk) (future : Nat)
    (waits : (walker.awaitTags tags state).1 = some future) :
    (∃ tag, state.namedFutures tag = some future) ∧
      (walker.awaitTags tags state).2.isDone future = false := by
  induction tags generalizing state with
  | nil => cases waits
  | cons first rest ih =>
    unfold awaitTags at waits ⊢
    cases launched : state.namedFutures first with
    | none =>
      simp only [launched] at waits ⊢
      exact ih state waits
    | some other =>
      have inspected := walker.resolved_inspected other state
      simp only [launched] at waits ⊢
      split at waits
      · rename_i resolved
        rw [if_pos resolved]
        obtain ⟨⟨tag, named⟩, open_⟩ := ih _ waits
        exact ⟨⟨tag, by rwa [inspected.control] at named⟩, open_⟩
      · rename_i unresolved
        rw [if_neg unresolved]
        cases waits
        exact ⟨⟨first, launched⟩, by simpa [resolved_fst] using unresolved⟩

theorem awaitBindings_inspected (tree : DNSRuleTree) (state : Walk) :
    Inspected walker.schedule state (walker.awaitBindings tree state).2 := by
  have tags := walker.awaitTags_inspected tree.matchResponseTags state
  unfold awaitBindings
  split
  · rename_i result
    exact result ▸ tags
  · rename_i after result
    rw [result] at tags
    split
    · split
      · exact tags
      · rename_i future _
        exact tags.trans (walker.resolved_inspected future after)
    · exact tags

/-- A rule with bindings either sees all of them resolved, or waits for an open one. -/
theorem awaitBindings_spec (tree : DNSRuleTree) (state : Walk) :
    match walker.awaitBindings tree state with
    | (none, after) =>
      (∀ tag ∈ tree.matchResponseTags, ∀ i, state.namedFutures tag = some i →
        after.isDone i = true) ∧
      (tree.matchResponseAnonymous = true → ∀ i, state.anonymousFuture = some i →
        after.isDone i = true)
    | (some future, after) =>
      ((∃ tag, state.namedFutures tag = some future) ∨ state.anonymousFuture = some future) ∧
        after.isDone future = false := by
  have inspected := walker.awaitTags_inspected tree.matchResponseTags state
  have waits := walker.awaitTags_some tree.matchResponseTags state
  have free := walker.awaitTags_none tree.matchResponseTags state
  unfold awaitBindings
  generalize walker.awaitTags tree.matchResponseTags state = result at *
  obtain ⟨_ | future, seen⟩ := result
  · have sameAnonymous : seen.anonymousFuture = state.anonymousFuture :=
      congrArg WalkControl.anonymousFuture inspected.control
    have free := free rfl
    dsimp only at free ⊢
    cases bound : tree.matchResponseAnonymous with
    | false => exact ⟨free, by simp⟩
    | true =>
      rw [if_pos rfl, sameAnonymous]
      cases anonymous : state.anonymousFuture with
      | none => exact ⟨free, by simp⟩
      | some future =>
        have looked := walker.resolved_inspected future seen
        have answer := walker.resolved_fst future seen
        dsimp only
        generalize walker.resolved future seen = result at *
        obtain ⟨resolved, after⟩ := result
        cases resolved with
        | false => exact ⟨.inr rfl, answer.symm⟩
        | true =>
          refine ⟨fun tag member i named => looked.isDone (free tag member i named), ?_⟩
          rintro - i same
          cases same
          exact answer.symm
  · obtain ⟨named, open_⟩ := waits future rfl
    exact ⟨.inl named, open_⟩

theorem respondWaits_inspected (tree : DNSRuleTree) (future : Nat) (state : Walk) :
    Inspected walker.schedule state (walker.respondWaits tree future state).2 := by
  unfold respondWaits
  split
  · exact .refl _ state
  · exact walker.arrive_inspected state

theorem mustWait_inspected (suspension : Suspension) (state : Walk) :
    Inspected walker.schedule state (walker.mustWait suspension state).2 := by
  unfold mustWait
  split
  · exact walker.arrive_inspected state
  all_goals exact .refl _ state

/-- The rules from a position on, split at the rule there. -/
theorem rule_of_drop {rules rest : List DNSRule} {rule : DNSRule} {position : Nat}
    (here : rule :: rest = rules.drop position) :
    rules[position]? = some rule ∧ rest = rules.drop (position + 1) := by
  rw [← head?_drop, ← tail_drop, ← here]
  exact ⟨rfl, rfl⟩

theorem sweepArmedDNSRules_nil (noneArmed : state.armedRules = []) :
    walker.sweepArmedDNSRules state = (none, { state.record .swept with armedRules := [] }) := by
  rw [sweepArmedDNSRules, noneArmed]
  rfl

/-! ## Settling -/

/-- The named responses and transports as a settled future leaves them. -/
structure Stored (tag : String) (index : Nat) (transport : DNSTransport) (before after : Walk) :
    Prop where
  control : after.toWalkControl = before.toWalkControl
  futures : after.futures = before.futures
  events : after.events = before.events
  returned : after.returned = before.returned
  wake : after.wake = true → before.wake = true
  responses : after.namedResponses =
    if tag = "" then before.namedResponses
    else Function.update before.namedResponses tag (before.answerOf index)
  transports : after.namedTransports =
    if tag = "" then before.namedTransports
    else Function.update before.namedTransports tag (some transport)

/-- One turn of `settleDNSFutures`: nothing to do, an open future, or a future that is
settled and leaves its answer under its tag. -/
theorem settleFuture_cases (state : Walk) (index : Nat) :
    (walker.settleFuture state index = state ∧
      ∀ future, state.futures[index]? = some future → future.settled = true) ∨
    (Inspected walker.schedule state (walker.settleFuture state index) ∧
      (walker.settleFuture state index).isDone index = false) ∨
    ∃ future resolved viewed, state.futures[index]? = some future ∧ future.settled = false ∧
      Inspected walker.schedule state resolved ∧ resolved.isDone index = true ∧
      Inspected walker.schedule (resolved.markSettled index) viewed ∧
      Stored future.tag index future.transport viewed (walker.settleFuture state index) := by
  cases found : state.futures[index]? with
  | none => exact .inl ⟨by simp only [settleFuture, found], by simp⟩
  | some future =>
    by_cases settled : future.settled = true
    · exact .inl ⟨by simp only [settleFuture, found, settled, if_true], by simp_all⟩
    · right
      rw [Bool.not_eq_true] at settled
      have inspected := walker.resolved_inspected index state
      by_cases resolved : (walker.resolved index state).1 = true
      · right
        have marked : ((walker.resolved index state).2.markSettled index).isDone index = true := by
          rw [markSettled_isDone]
          exact resolved
        by_cases untagged : future.tag = ""
        · refine ⟨future, _, _, rfl, settled, inspected, resolved, .refl _ _, ?_⟩
          have result : walker.settleFuture state index =
              (walker.resolved index state).2.markSettled index := by
            simp [settleFuture, found, settled, resolved, untagged]
          rw [result]
          exact ⟨rfl, rfl, rfl, rfl, id, by simp [untagged], by simp [untagged]⟩
        · have viewed := walker.view_inspected index
            ((walker.resolved index state).2.markSettled index)
          refine ⟨future, _, _, rfl, settled, inspected, resolved, viewed, ?_⟩
          have seen : (walker.view index ((walker.resolved index state).2.markSettled index)).1 =
              (walker.view index ((walker.resolved index state).2.markSettled index)).2.answerOf
                index := by
            rw [view_fst, viewed.isDone marked, if_pos rfl, viewed.answerOf]
          have result : walker.settleFuture state index =
              (walker.view index ((walker.resolved index state).2.markSettled index)).2.store
                future.tag (walker.view index ((walker.resolved index state).2.markSettled index)).1
                future.transport := by
            simp [settleFuture, found, settled, resolved, untagged]
          rw [result]
          exact ⟨rfl, rfl, rfl, rfl, id, by simp [store, untagged, seen], by simp [store, untagged]⟩
      · left
        have result : walker.settleFuture state index = (walker.resolved index state).2 := by
          simp [settleFuture, found, settled, resolved]
        rw [result]
        exact ⟨inspected, by simpa [resolved_fst] using resolved⟩

theorem settleFuture_observed (state : Walk) (index : Nat) :
    Observed state (walker.settleFuture state index) := by
  rcases walker.settleFuture_cases state index with
    ⟨result, -⟩ | ⟨inspected, -⟩ | ⟨future, resolved, viewed, -, -, first, -, second, stored⟩
  · rw [result]
    exact .refl state
  · exact inspected.observed
  · have marked : Observed resolved (resolved.markSettled index) :=
      ⟨rfl, .of_done (fun i done => by rwa [markSettled_isDone]) rfl id, rfl⟩
    have kept : Observed viewed (walker.settleFuture state index) :=
      ⟨stored.control, .of_done (fun i done => by rwa [isDone, stored.futures]) stored.returned
        stored.wake, stored.events⟩
    exact ((first.observed.trans marked).trans second.observed).trans kept

theorem settleDNSFutures_observed (state : Walk) :
    Observed state (walker.settleDNSFutures state) := by
  have turns (indices : List Nat) (start : Walk) :
      Observed start (indices.foldl walker.settleFuture start) := by
    induction indices generalizing start with
    | nil => exact .refl start
    | cons index rest ih => exact (walker.settleFuture_observed start index).trans (ih _)
  exact turns _ state

/-! ## Launching -/

theorem isDone_append (done : state.isDone future = true) (new : List Future) :
    ({ state with futures := state.futures ++ new } : Walk).isDone future = true := by
  unfold isDone at done ⊢
  cases found : state.futures[future]? with
  | none => simp [found] at done
  | some value =>
    have inside : future < state.futures.length := (List.getElem?_eq_some_iff.mp found).1
    rw [List.getElem?_append_left inside]
    exact done

theorem launchDNSEvaluate_observed (tag : String) (transport : DNSTransport)
    (options : DNSQueryOptions) (state : Walk) :
    Observed state (walker.launchDNSEvaluate tag transport options state).2 := by
  have appended (new : List Future) :
      Observed state { state with futures := state.futures ++ new } :=
    ⟨rfl, .of_done (fun _ done => isDone_append done new) rfl id, rfl⟩
  exact (appended _).trans (walker.arrive_moved .launch _).observed

end Walker
end AmneziaBox.Source.DNS
