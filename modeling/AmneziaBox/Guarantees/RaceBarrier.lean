import AmneziaBox.Guarantees.ExchangeInvariant
import AmneziaBox.Library.History

/-!
# The race barrier of the DNS rule walk

A race rule does not hold up the walk, but nothing behind it takes effect before it
has been judged. The events of a run carry the argument: each of them is lawful over
the events before it (`Lawful`), whatever the schedule. A race rule that matches is
passed over when its server is missing or may not be used.
-/
namespace AmneziaBox.Guarantees.RaceBarrier
open Source.Adapter Source.Rule Source.DNS Library ExchangeInvariant List
open Source.DNS.Walk (Observed Inspected Moved)
open Source.DNS.Example

/-! ## What the history has to satisfy -/

section Law
variable (walker : Walker) (options : DNSQueryOptions)

def IsRace (index : Nat) : Prop := ∃ rule, walker.rules[index]? = some rule ∧ rule.race = true

def Judged (index : Nat) (events : List WalkEvent) : Prop :=
  ∃ judgement, .judged judgement ∈ events ∧ judgement.index = index

/-- The options in force at a rule: those of the caller, updated by the `route-options`
actions of the rules before it. -/
def optionsAt (index : Nat) (events : List WalkEvent) : DNSQueryOptions :=
  events.foldr (fun event options =>
    match event with
    | .updated position action =>
      if position < index then applyDNSRouteOptions action options else options
    | _ => options) options

/-- The action of a race rule can be taken: a `route` action needs a server that exists
and that may answer. -/
def Usable (rule : DNSRule) : Prop :=
  match rule.action with
  | .route server _ action =>
    (resolveDNSRoute walker.router server action walker.allowFakeIP {}).2.1 = .resolved
  | .respond => True
  | .predefined _ => True
  | .reject method => method ≠ .reply
  | _ => False

/-- The judgement of a race rule that decides the exchange. -/
structure Decisive (judgement : Judgement) : Prop where
  race : judgement.rule.race = true
  matched : judgement.matched = true
  usable : Usable walker judgement.rule

/-- The events since the start of the last sweep. -/
def currentSweep (events : List WalkEvent) : List WalkEvent :=
  events.takeWhile fun event => match event with | .swept => false | _ => true

/-- When a race rule is judged: once, with all futures resolved that it was bound to when
it was armed, with the options in force at its position, and after every open race rule
before it was found unready in the same sweep. -/
structure RaceJudged (judgement : Judgement) (past : List WalkEvent) : Prop where
  once : ¬Judged judgement.index past
  resolved : ∃ bound, .armed judgement.index bound ∈ past ∧
    ∀ future ∈ bound, judgement.futures[future]?.any Future.done = true
  options_eq : judgement.options = optionsAt options judgement.index past
  inOrder : ∀ index < judgement.index, IsRace walker index → ¬Judged index past →
    .passed index ∈ currentSweep past

/-- A query is sent to the server of its rule, with the options in force at the rule and
those of the rule itself; behind the last rule, to the default server. -/
def SentInForce (exchange : PendingExchange) (past : List WalkEvent) : Prop :=
  match walker.rules[exchange.index]? with
  | some rule => ∃ server speculative action, rule.action = .route server speculative action ∧
      resolveDNSRoute walker.router server action walker.allowFakeIP
        (optionsAt options exchange.index past) =
          (some exchange.transport, .resolved, exchange.options)
  | none => exchange.transport = walker.router.defaultTransport ∧
      exchange.options = optionsAt options exchange.index past

/-- What each event needs of the events before it. -/
def Lawful (event : WalkEvent) (past : List WalkEvent) : Prop :=
  match event with
  | .judged judgement =>
    walker.rules[judgement.index]? = some judgement.rule ∧
    (judgement.rule.race = true → RaceJudged walker options judgement past) ∧
    -- nothing is judged after a decision
    ∀ earlier, .judged earlier ∈ past → ¬Decisive walker earlier
  | .committed index =>
    ∃ judgement earlier, past = .judged judgement :: earlier ∧ judgement.index = index ∧
      Decisive walker judgement
  | .effect index =>
    ¬IsRace walker index → ∀ race < index, IsRace walker race →
      Judged race past ∧ ∀ other, .committed other ∉ past
  | .sent exchange => SentInForce walker options exchange past
  | _ => True

end Law

/-! ## Events that do not matter to the law -/

/-- Neither a judgement nor a commitment nor an update. -/
def neutral : WalkEvent → Bool
  | .judged _ => false
  | .committed _ => false
  | .updated _ _ => false
  | _ => true

variable {index : Nat}

section Neutral
variable {walker : Walker} {options : DNSQueryOptions} {new events : List WalkEvent}

theorem mem_append_neutral (free : ∀ event ∈ new, neutral event = true) {event : WalkEvent}
    (counts : neutral event = false) : event ∈ new ++ events ↔ event ∈ events := by
  rw [mem_append]
  constructor
  · rintro (member | member)
    · rw [free event member] at counts
      cases counts
    · exact member
  · exact Or.inr

theorem judged_append_neutral (free : ∀ event ∈ new, neutral event = true) :
    Judged index (new ++ events) ↔ Judged index events := by
  simp [Judged, mem_append_neutral free (rfl : neutral (.judged _) = false)]

theorem optionsAt_append_neutral (free : ∀ event ∈ new, neutral event = true) (index : Nat) :
    optionsAt options index (new ++ events) = optionsAt options index events := by
  induction new with
  | nil => rfl
  | cons event rest ih =>
    have tail := ih fun event member => free event (by simp [member])
    have head := free event (by simp)
    rw [← tail]
    cases event <;> first | rfl | cases head

/-- Without updates behind a rule, the options in force are those after all updates. -/
theorem optionsAt_le {first second : Nat} (le : first ≤ second)
    (below : ∀ index action, .updated index action ∈ events → index < first) :
    optionsAt options second events = optionsAt options first events := by
  induction events with
  | nil => rfl
  | cons event rest ih =>
    have tail := ih fun index action member => below index action (by simp [member])
    rw [optionsAt, foldr_cons, ← optionsAt, tail]
    cases event with
    | updated index action =>
      have here := below index action (by simp)
      simp [optionsAt, here, Nat.lt_of_lt_of_le here le]
    | _ => rfl

theorem currentSweep_append (free : ∀ event ∈ new, event ≠ .swept) :
    currentSweep (new ++ events) = new ++ currentSweep events := by
  unfold currentSweep
  rw [takeWhile_append_of_pos]
  intro event member
  have notSwept := free event member
  cases event <;> simp_all

end Neutral

/-! ## The invariant of a walk that goes on -/

section Invariant
variable (walker : Walker) (options : DNSQueryOptions)

/-- An armed rule waits for the rest of the futures it was bound to. -/
structure ArmedFor (position : Nat) (state : Walk) (armed : ArmedRule) : Prop where
  below : armed.ruleIndex < position
  isRule : walker.rules[armed.ruleIndex]? = some armed.rule
  race : armed.rule.race = true
  bound : ∃ bound, .armed armed.ruleIndex bound ∈ state.events ∧
    ∀ future ∈ bound, future ∈ armed.futures ∨ state.isDone future = true
  options_eq : armed.options = optionsAt options armed.ruleIndex state.events
  open_ : ¬Judged armed.ruleIndex state.events

/-- The walk has passed the rules before `position`, and `armed` are the race rules among
them that are still to be judged. -/
structure Running (position : Nat) (armed : List ArmedRule) (state : Walk) : Prop where
  lawful : Always (Lawful walker options) state.events
  undecided : ∀ judgement, .judged judgement ∈ state.events → ¬Decisive walker judgement
  uncommitted : ∀ index, .committed index ∉ state.events
  sorted : armed.Pairwise fun first second => first.ruleIndex < second.ruleIndex
  armedFor : ∀ rule ∈ armed, ArmedFor walker options position state rule
  covered : ∀ index < position, IsRace walker index →
    Judged index state.events ∨ ∃ rule ∈ armed, rule.ruleIndex = index
  judgedBelow : ∀ index, IsRace walker index → Judged index state.events → index < position
  updatedBelow : ∀ index action, .updated index action ∈ state.events → index < position
  options_eq : state.effectiveOptions = optionsAt options position state.events

/-- The walk is over, or about to be: every decision is a commitment. -/
structure Over (state : Walk) : Prop where
  lawful : Always (Lawful walker options) state.events
  decided : ∀ judgement, .judged judgement ∈ state.events → Decisive walker judgement →
    .committed judgement.index ∈ state.events

/-- The walk waits to send or to read the query of a rule that may take effect. -/
structure PendingFor (exchange : PendingExchange) (state : Walk) : Prop
    extends Over walker options state where
  noneArmed : state.armedRules = []
  effective : Lawful walker options (.effect exchange.index) state.events
  sent : exchange.future = none → SentInForce walker options exchange state.events

end Invariant

section Steps
variable {walker : Walker} {options : DNSQueryOptions} {armed : List ArmedRule} {position : Nat}
  {state : Walk}

variable {before after : Walk} {new : List WalkEvent}

section
variable (running : Running walker options position armed before)
  (effectiveOptions : after.effectiveOptions = before.effectiveOptions)
include running effectiveOptions

/-- A step that only adds neutral events and completes futures. -/
theorem Running.of_neutral
    (done : ∀ future, before.isDone future = true → after.isDone future = true)
    (events : after.events = new ++ before.events) (free : ∀ event ∈ new, neutral event = true)
    (lawful : Always (Lawful walker options) (new ++ before.events)) :
    Running walker options position armed after where
  lawful := by rwa [events]
  undecided judgement member := by
    rw [events, mem_append_neutral free rfl] at member
    exact running.undecided judgement member
  uncommitted index member := by
    rw [events, mem_append_neutral free rfl] at member
    exact running.uncommitted index member
  sorted := running.sorted
  armedFor rule member := by
    have armedFor := running.armedFor rule member
    obtain ⟨bound, recorded, each⟩ := armedFor.bound
    refine ⟨armedFor.below, armedFor.isRule, armedFor.race, ⟨bound, ?_, fun future inside => ?_⟩, ?_, ?_⟩
    · exact events ▸ mem_append_right _ recorded
    · exact (each future inside).imp_right (done future)
    · rw [events, optionsAt_append_neutral free]
      exact armedFor.options_eq
    · rw [events, judged_append_neutral free]
      exact armedFor.open_
  covered index below race := by
    rw [events, judged_append_neutral free]
    exact running.covered index below race
  judgedBelow index race judged := by
    rw [events, judged_append_neutral free] at judged
    exact running.judgedBelow index race judged
  updatedBelow index action member := by
    rw [events, mem_append_neutral free rfl] at member
    exact running.updatedBelow index action member
  options_eq := by
    rw [effectiveOptions, events, optionsAt_append_neutral free]
    exact running.options_eq

/-- A step that touches neither the options nor the futures nor the events. -/
theorem Running.congr (futures : after.futures = before.futures)
    (events : after.events = before.events) :
    Running walker options position armed after :=
  running.of_neutral effectiveOptions (fun _ done => by rwa [Walk.isDone, futures])
    (events.trans (nil_append _).symm) (by simp) running.lawful

end

theorem Running.observed (running : Running walker options position armed before)
    (observed : Observed before after) : Running walker options position armed after :=
  running.of_neutral (by rw [observed.control]) observed.done
    (observed.events.trans (nil_append _).symm) (by simp) running.lawful

theorem passed_observed (running : Running walker options position before.armedRules before)
    (observed : Observed before after) :
    Running walker options position after.armedRules after := by
  rw [observed.control]
  exact running.observed observed

variable {judgement : Judgement} {events : List WalkEvent}

theorem judged_cons :
    Judged index (.judged judgement :: events) ↔ judgement.index = index ∨ Judged index events := by
  simp only [Judged, mem_cons, WalkEvent.judged.injEq]
  constructor
  · rintro ⟨other, rfl | member, same⟩
    · exact .inl same
    · exact .inr ⟨other, member, same⟩
  · rintro (same | ⟨other, member, same⟩)
    · exact ⟨judgement, .inl rfl, same⟩
    · exact ⟨other, .inr member, same⟩

/-- A judgement that does not decide the exchange; `armed` loses the judged rule, if it
was a race rule. -/
theorem Running.judged {remaining : List ArmedRule}
    (running : Running walker options position armed before)
    (lawful : Lawful walker options (.judged judgement) before.events)
    (undecided : ¬Decisive walker judgement)
    (events : after.events = .judged judgement :: before.events)
    (effectiveOptions : after.effectiveOptions = before.effectiveOptions)
    (futures : after.futures = before.futures) (sublist : remaining.Sublist armed)
    (others : ∀ rule ∈ remaining, rule.ruleIndex ≠ judgement.index)
    (judgedOnly : ∀ rule ∈ armed, rule ∈ remaining ∨ rule.ruleIndex = judgement.index)
    (below : IsRace walker judgement.index → judgement.index < position) :
    Running walker options position remaining after where
  lawful := by
    rw [events]
    exact ⟨lawful, running.lawful⟩
  undecided other member := by
    rw [events, mem_cons, WalkEvent.judged.injEq] at member
    rcases member with rfl | earlier
    · exact undecided
    · exact running.undecided other earlier
  uncommitted index member := by
    rw [events] at member
    exact running.uncommitted index (by simpa using member)
  sorted := running.sorted.sublist sublist
  armedFor rule member := by
    have armedFor := running.armedFor rule (sublist.subset member)
    obtain ⟨bound, recorded, each⟩ := armedFor.bound
    refine ⟨armedFor.below, armedFor.isRule, armedFor.race, ⟨bound, ?_, fun future inside => ?_⟩, ?_, ?_⟩
    · rw [events]
      exact mem_cons_of_mem _ recorded
    · rw [Walk.isDone, futures]
      exact each future inside
    · rw [events]
      exact armedFor.options_eq
    · rw [events, judged_cons]
      rintro (same | earlier)
      · exact others rule member same.symm
      · exact armedFor.open_ earlier
  covered index inside race := by
    rw [events, judged_cons]
    rcases running.covered index inside race with judged | ⟨rule, member, rfl⟩
    · exact .inl (.inr judged)
    · rcases judgedOnly rule member with kept | same
      · exact .inr ⟨rule, kept, rfl⟩
      · exact .inl (.inl same.symm)
  judgedBelow index race judged := by
    rw [events, judged_cons] at judged
    rcases judged with rfl | earlier
    · exact below race
    · exact running.judgedBelow index race earlier
  updatedBelow index action member := by
    rw [events] at member
    exact running.updatedBelow index action (by simpa using member)
  options_eq := by
    rw [effectiveOptions, events]
    exact running.options_eq

variable {rule : DNSRule}

theorem not_isRace (isRule : walker.rules[position]? = some rule) (plain : rule.race = false) :
    ¬IsRace walker position := by
  rintro ⟨other, found, race⟩
  rw [isRule] at found
  cases found
  rw [plain] at race
  cases race

section
variable (running : Running walker options position armed state)
include running

theorem Running.ended :
    Over walker options state :=
  ⟨running.lawful, fun judgement member decisive =>
    absurd decisive (running.undecided judgement member)⟩

theorem Running.record {event : WalkEvent} (isNeutral : neutral event = true)
    (lawful : Lawful walker options event state.events) :
    Running walker options position armed (state.record event) :=
  running.of_neutral rfl (fun _ done => done) singleton_append.symm (by simpa using isNeutral)
    ⟨lawful, running.lawful⟩

/-- The walk passes a rule that is not a race rule. -/
theorem Running.advance (plain : ¬IsRace walker position) :
    Running walker options (position + 1) armed state where
  lawful := running.lawful
  undecided := running.undecided
  uncommitted := running.uncommitted
  sorted := running.sorted
  armedFor rule member :=
    let armedFor := running.armedFor rule member
    { armedFor with below := Nat.lt_succ_of_lt armedFor.below }
  covered index below race := by
    rcases Nat.lt_succ_iff_lt_or_eq.mp below with earlier | rfl
    · exact running.covered index earlier race
    · exact absurd race plain
  judgedBelow index race judged := Nat.lt_succ_of_lt (running.judgedBelow index race judged)
  updatedBelow index action member := Nat.lt_succ_of_lt (running.updatedBelow index action member)
  options_eq := by
    rw [optionsAt_le (Nat.le_succ position) running.updatedBelow]
    exact running.options_eq

/-- The rule of the walk is judged. -/
theorem Running.judge_plain (isRule : walker.rules[position]? = some rule)
    (plain : rule.race = false) (queryOptions : DNSQueryOptions) (response : Option Msg) :
    Running walker options position armed
      (state.judge position rule queryOptions response).2 := by
  have notRace := not_isRace isRule plain
  refine running.judged ⟨isRule, fun race => ?_, running.undecided⟩ ?_ rfl rfl rfl
    (List.Sublist.refl _) ?_ (fun rule member => .inl member) (fun race => absurd race notRace)
  · exact absurd (plain.symm.trans race) (by simp)
  · intro decisive
    exact absurd (plain.symm.trans decisive.race) (by simp)
  · intro rule member same
    have armedFor := running.armedFor rule member
    exact Nat.lt_irrefl _ (same ▸ armedFor.below)

end

/-! ## A sweep -/

theorem resolveDNSRoute_status (router : Router) (server : String) (action : RouteOptions)
    (allowFakeIP : Bool) (first second : DNSQueryOptions) :
    (resolveDNSRoute router server action allowFakeIP first).2.1 =
      (resolveDNSRoute router server action allowFakeIP second).2.1 := by
  unfold resolveDNSRoute
  cases router.transport server with
  | none => rfl
  | some transport =>
    dsimp only
    split <;> rfl

variable {action : RouteOptions}

/-- A resolved route has a server. -/
theorem resolveDNSRoute_resolved {router : Router} {server : String} {allowFakeIP : Bool}
    {before : DNSQueryOptions}
    (resolved : (resolveDNSRoute router server action allowFakeIP before).2.1 = .resolved) :
    ∃ transport queryOptions, resolveDNSRoute router server action allowFakeIP before =
      (some transport, .resolved, queryOptions) := by
  unfold resolveDNSRoute at resolved ⊢
  cases found : router.transport server with
  | none => simp [found] at resolved
  | some transport =>
    simp only [found] at resolved ⊢
    by_cases skipped : (transport.isFakeIP && !allowFakeIP) = true
    · simp [skipped] at resolved
    · rw [if_neg skipped]
      exact ⟨_, _, rfl⟩

variable (walker) in
/-- The action of a matched race rule commits exactly when it can be taken. -/
theorem commitArmed_spec (armed : ArmedRule) (state : Walk) :
    match (walker.commitArmed armed state).1 with
    | some commit => Usable walker armed.rule ∧
        ∀ exchange, commit = .pending exchange → exchange.index = armed.ruleIndex ∧
          ∃ server speculative action, armed.rule.action = .route server speculative action ∧
            resolveDNSRoute walker.router server action walker.allowFakeIP armed.options =
              (some exchange.transport, .resolved, exchange.options)
    | none => ¬Usable walker armed.rule := by
  unfold Walker.commitArmed Usable
  cases armed.rule.action with
  | route server speculative action =>
    dsimp only
    rw [resolveDNSRoute_status _ _ _ _ {} armed.options]
    by_cases resolved : (resolveDNSRoute walker.router server action walker.allowFakeIP
        armed.options).2.1 = .resolved
    · obtain ⟨transport, queryOptions, result⟩ := resolveDNSRoute_resolved resolved
      rw [result]
      refine ⟨rfl, ?_⟩
      rintro exchange ⟨⟩
      exact ⟨rfl, server, speculative, action, rfl, result⟩
    · split
      · rename_i committed
        split at committed
        · rename_i result
          rw [result] at resolved
          exact absurd rfl resolved
        · cases committed
      · exact resolved
  | reject method => cases method <;> simp [rejectResult]
  | respond | predefined => exact ⟨trivial, by simp⟩
  | none | evaluate | routeOptions => exact id

/-- The armed rules left of the index were found unready in this sweep. -/
def Passed (kept : List ArmedRule) (state : Walk) : Prop :=
  ∀ armed ∈ kept, .passed armed.ruleIndex ∈ currentSweep state.events

variable {kept : List ArmedRule}

theorem Passed.of_events (passed : Passed kept before)
    (events : after.events = new ++ before.events) (free : ∀ event ∈ new, event ≠ .swept) :
    Passed kept after := by
  intro armed member
  rw [events, currentSweep_append free]
  exact mem_append_right _ (passed armed member)

theorem Passed.observed (passed : Passed kept before) (observed : Observed before after) :
    Passed kept after :=
  passed.of_events (observed.events.trans (nil_append _).symm) (by simp)

theorem Passed.judge (passed : Passed kept state) (index : Nat) (rule : DNSRule)
    (queryOptions : DNSQueryOptions) (response : Option Msg) :
    Passed kept (state.judge index rule queryOptions response).2 :=
  passed.of_events singleton_append.symm (by simp)

section
variable {rest : List ArmedRule} {armed : ArmedRule}
  (running : Running walker options position (kept ++ armed :: rest) state)
include running

/-- The judgement of the armed rule at the index of a sweep is lawful. -/
theorem Running.judge_armed (passed : Passed kept state)
    (ready : ∀ future ∈ armed.futures, state.isDone future = true) (response : Option Msg) :
    Lawful walker options
      (.judged (state.judgement armed.ruleIndex armed.rule armed.options response))
      state.events := by
  have armedFor := running.armedFor armed (by simp)
  refine ⟨armedFor.isRule, fun _ => ?_, running.undecided⟩
  constructor
  · exact armedFor.open_
  · obtain ⟨bound, recorded, each⟩ := armedFor.bound
    refine ⟨bound, recorded, fun future member => ?_⟩
    rcases each future member with waited | done
    · exact ready future waited
    · exact done
  · exact armedFor.options_eq
  · intro earlier below race open_
    replace below : earlier < armed.ruleIndex := below
    rcases running.covered earlier (Nat.lt_trans below armedFor.below) race with judged | listed
    · exact absurd judged open_
    · obtain ⟨other, member, rfl⟩ := listed
      -- the list is sorted, so an armed rule with a smaller index is left of this one
      rcases mem_append.mp member with before | behind
      · exact passed other before
      · have sorted := (pairwise_append.mp running.sorted).2.1
        rcases mem_cons.mp behind with rfl | after
        · exact absurd below (Nat.lt_irrefl _)
        · exact absurd below (Nat.lt_asymm (rel_of_pairwise_cons sorted after))

/-- The judged armed rule leaves the list when it does not decide. -/
theorem Running.judge_armed_undecided {response : Option Msg}
    (lawful : Lawful walker options
      (.judged (state.judgement armed.ruleIndex armed.rule armed.options response)) state.events)
    (undecided : ¬Decisive walker (state.judgement armed.ruleIndex armed.rule armed.options response)) :
    Running walker options position (kept ++ rest)
      (state.judge armed.ruleIndex armed.rule armed.options response).2 := by
  obtain ⟨_, sortedRest, across⟩ := pairwise_append.mp running.sorted
  refine running.judged lawful undecided rfl rfl rfl
    ((List.Sublist.refl kept).append (sublist_cons_self armed rest)) ?_ ?_
    (fun _ => (running.armedFor armed (by simp)).below)
  · intro other member
    rcases mem_append.mp member with before | behind
    · exact Nat.ne_of_lt (across other before armed (by simp))
    · exact Nat.ne_of_gt (rel_of_pairwise_cons sortedRest behind)
  · intro other member
    rcases mem_append.mp member with before | behind
    · exact .inl (mem_append_left _ before)
    · rcases mem_cons.mp behind with rfl | after
      · exact .inr rfl
      · exact .inl (mem_append_right _ after)

end

/-- A decisive judgement and its commitment end the walk. -/
theorem Running.commit (running : Running walker options position armed before)
    (lawful : Lawful walker options (.judged judgement) before.events)
    (decisive : Decisive walker judgement)
    (events : after.events = .committed judgement.index :: .judged judgement :: before.events) :
    Over walker options after where
  lawful := by
    rw [events]
    exact ⟨⟨judgement, _, rfl, rfl, decisive⟩, lawful, running.lawful⟩
  decided other member otherDecisive := by
    rw [events] at member ⊢
    rw [mem_cons, mem_cons, WalkEvent.judged.injEq] at member
    rcases member with impossible | rfl | earlier
    · cases impossible
    · exact mem_cons_self ..
    · exact absurd otherDecisive (running.undecided other earlier)

/-! ## One rule -/

/-- Arming the race rule at the position. -/
theorem Running.arm {rules : List ArmedRule}
    (running : Running walker options position rules before) {armed : ArmedRule}
    (index : armed.ruleIndex = position) (isRule : walker.rules[position]? = some armed.rule)
    (race : armed.rule.race = true) (queryOptions : armed.options = before.effectiveOptions)
    {bound : List Nat}
    (waits : ∀ future ∈ bound, future ∈ armed.futures ∨ before.isDone future = true)
    (events : after.events = .armed position bound :: before.events)
    (effectiveOptions : after.effectiveOptions = before.effectiveOptions)
    (futures : after.futures = before.futures) :
    Running walker options (position + 1) (rules ++ [armed]) after := by
  have isRace : IsRace walker position := ⟨armed.rule, isRule, race⟩
  have running := running.of_neutral effectiveOptions (fun future done => by rwa [Walk.isDone, futures])
    (events.trans singleton_append.symm) (by simp [neutral]) ⟨trivial, running.lawful⟩
  have later : optionsAt options (position + 1) after.events = optionsAt options position after.events :=
    optionsAt_le (Nat.le_succ position) running.updatedBelow
  refine ⟨running.lawful, running.undecided, running.uncommitted, ?_, ?_, ?_, ?_, ?_, ?_⟩
  · refine pairwise_append.mpr ⟨running.sorted, pairwise_singleton _ _, ?_⟩
    intro earlier member other here
    rw [mem_singleton.mp here, index]
    exact (running.armedFor earlier member).below
  · intro rule member
    rcases mem_append.mp member with earlier | here
    · have armedFor := running.armedFor rule earlier
      exact { armedFor with below := Nat.lt_succ_of_lt armedFor.below }
    · rw [mem_singleton.mp here]
      constructor
      · omega
      · rwa [index]
      · exact race
      · refine ⟨bound, by simp [events, index], fun future member => ?_⟩
        rw [Walk.isDone, futures]
        exact waits future member
      · rw [queryOptions, ← effectiveOptions, index]
        exact running.options_eq
      · rw [index]
        intro judged
        exact Nat.lt_irrefl _ (running.judgedBelow position isRace judged)
  · intro earlier below race
    rcases Nat.lt_succ_iff_lt_or_eq.mp below with inside | rfl
    · refine (running.covered earlier inside race).imp_right ?_
      rintro ⟨rule, member, same⟩
      exact ⟨rule, mem_append_left _ member, same⟩
    · exact .inr ⟨armed, by simp, index⟩
  · exact fun earlier race judged => Nat.lt_succ_of_lt (running.judgedBelow earlier race judged)
  · exact fun earlier action member => Nat.lt_succ_of_lt (running.updatedBelow earlier action member)
  · rw [later]
    exact running.options_eq

theorem judged_cons_updated :
    Judged index (.updated position action :: events) ↔ Judged index events := by
  simp [Judged]

/-- A `route-options` action: it counts for the rules behind it only. -/
theorem Running.update (running : Running walker options position armed before)
    (plain : ¬IsRace walker position)
    (events : after.events = .updated position action :: before.events)
    (effectiveOptions : after.effectiveOptions =
      applyDNSRouteOptions action before.effectiveOptions)
    (futures : after.futures = before.futures) :
    Running walker options (position + 1) armed after := by
  have armedBefore := running.armedFor
  have running := running.advance plain
  refine ⟨?_, ?_, ?_, running.sorted, ?_, ?_, ?_, ?_, ?_⟩
  · rw [events]
    exact ⟨trivial, running.lawful⟩
  · intro judgement member
    rw [events] at member
    exact running.undecided judgement (by simpa using member)
  · intro index member
    rw [events] at member
    exact running.uncommitted index (by simpa using member)
  · intro rule member
    have armedFor := armedBefore rule member
    obtain ⟨bound, recorded, each⟩ := armedFor.bound
    have notYet : ¬position < rule.ruleIndex := Nat.lt_asymm armedFor.below
    refine ⟨Nat.lt_succ_of_lt armedFor.below, armedFor.isRule, armedFor.race, ⟨bound, ?_, ?_⟩, ?_, ?_⟩
    · rw [events]
      exact mem_cons_of_mem _ recorded
    · intro future inside
      rw [Walk.isDone, futures]
      exact each future inside
    · rw [armedFor.options_eq, events]
      simp [optionsAt, notYet]
    · rw [events, judged_cons_updated]
      exact armedFor.open_
  · intro index below race
    rw [events, judged_cons_updated]
    exact running.covered index below race
  · intro index race judged
    rw [events, judged_cons_updated] at judged
    exact running.judgedBelow index race judged
  · intro index other member
    rw [events, mem_cons] at member
    rcases member with ⟨rfl, rfl⟩ | earlier
    · exact Nat.lt_succ_self _
    · exact running.updatedBelow index other earlier
  · rw [effectiveOptions, events, running.options_eq]
    simp [optionsAt]

/-- With no armed rule left, the barrier is open for the rule of the walk. -/
theorem Running.effect (running : Running walker options position [] state) :
    Lawful walker options (.effect position) state.events := by
  intro _ race below isRace
  rcases running.covered race below isRace with judged | ⟨_, impossible, _⟩
  · exact ⟨judged, running.uncommitted⟩
  · cases impossible

/-! ## The walk -/

/-- The race rules of the list have something to wait for. -/
def RaceBound (rules : List DNSRule) : Prop :=
  ∀ rule ∈ rules, rule.race = true → rule.tree.hasBindings = true

/-! ## The run -/

theorem Over.of_neutral (ended : Over walker options before)
    (events : after.events = new ++ before.events) (free : ∀ event ∈ new, neutral event = true)
    (lawful : Always (Lawful walker options) (new ++ before.events)) :
    Over walker options after where
  lawful := by rwa [events]
  decided judgement member decisive := by
    rw [events, mem_append_neutral free rfl] at member
    rw [events]
    exact mem_append_right _ (ended.decided judgement member decisive)

theorem Over.observed (ended : Over walker options before) (observed : Observed before after) :
    Over walker options after :=
  ended.of_neutral (observed.events.trans (nil_append _).symm) (by simp) ended.lawful

theorem Over.record (ended : Over walker options state) {event : WalkEvent}
    (isNeutral : neutral event = true) (lawful : Lawful walker options event state.events) :
    Over walker options (state.record event) :=
  ended.of_neutral singleton_append.symm (by simpa using isNeutral) ⟨lawful, ended.lawful⟩

/-- An effect that is lawful stays so. -/
theorem lawful_effect_append (free : ∀ event ∈ new, neutral event = true)
    (lawful : Lawful walker options (.effect index) events) :
    Lawful walker options (.effect index) (new ++ events) := by
  intro plain race below isRace
  obtain ⟨judged, uncommitted⟩ := lawful plain race below isRace
  refine ⟨(judged_append_neutral free).mpr judged, fun other => ?_⟩
  rw [mem_append_neutral free rfl]
  exact uncommitted other

variable {exchange : PendingExchange}

theorem sentInForce_append (free : ∀ event ∈ new, neutral event = true)
    (sent : SentInForce walker options exchange events) :
    SentInForce walker options exchange (new ++ events) := by
  unfold SentInForce at sent ⊢
  rwa [optionsAt_append_neutral free]

theorem PendingFor.of_neutral (pending : PendingFor walker options exchange before)
    (noneArmed : after.armedRules = before.armedRules)
    (events : after.events = new ++ before.events) (free : ∀ event ∈ new, neutral event = true)
    (lawful : Always (Lawful walker options) (new ++ before.events)) :
    PendingFor walker options exchange after :=
  ⟨pending.toOver.of_neutral events free lawful, noneArmed.trans pending.noneArmed,
    events ▸ lawful_effect_append free pending.effective,
    fun none => events ▸ sentInForce_append free (pending.sent none)⟩

theorem PendingFor.observed (pending : PendingFor walker options exchange before)
    (observed : Observed before after) : PendingFor walker options exchange after :=
  pending.of_neutral (by rw [observed.control]) (observed.events.trans (nil_append _).symm)
    (by simp) pending.lawful

/-- The query of a pending exchange is sent, or its future read. -/
theorem finishPendingExchange_over (fuel : Nat) (ended : Over walker options state)
    (effective : Lawful walker options (.effect exchange.index) state.events)
    (sent : exchange.future = none → SentInForce walker options exchange state.events) :
    Over walker options (walker.finishPendingExchange fuel exchange state).2 := by
  unfold Walker.finishPendingExchange
  cases found : exchange.future with
  | none =>
    have recorded := ended.record (rfl : neutral (.sent exchange) = true) (sent found)
    have still : Lawful walker options (.effect exchange.index) ([.sent exchange] ++ state.events) :=
      lawful_effect_append (by simp [neutral]) effective
    exact recorded.record rfl still
  | some future =>
    have waited := (walker.waitUntil_moved (fun state => state.isDone future) fuel state).observed
    dsimp only
    generalize walker.waitUntil (fun state => state.isDone future) fuel state = result at *
    obtain ⟨outcome, after⟩ := result
    have ended := ended.observed waited
    cases outcome with
    | ready => exact ended.record rfl (waited.events ▸ effective)
    | failed | waiting => exact ended

theorem initial_running (metadata : InboundContext) :
    Running walker options 0 [] { effectiveOptions := options, metadata := metadata } where
  lawful := trivial
  undecided := by simp
  uncommitted := by simp
  sorted := List.Pairwise.nil
  armedFor := by simp
  covered := by simp
  judgedBelow := by simp [Judged]
  updatedBelow := by simp
  options_eq := rfl

variable (walker options) in
/-- The law as an invariant of an exchange. -/
def barrier : Predicates where
  passed position state := Running walker options position state.armedRules state
  settled _ := True
  sweeping position kept rest state :=
    Running walker options position (kept ++ rest) state ∧ Passed kept state
  pending := PendingFor walker options
  due exchange state := Over walker options state ∧
    Lawful walker options (.effect exchange.index) state.events ∧
    (exchange.future = none → SentInForce walker options exchange state.events)
  ended := Over walker options

theorem unready_passed {kept rest : List ArmedRule} {armed : ArmedRule}
    (running : Running walker options position (kept ++ armed :: rest) state)
    (passed : Passed kept state) : (barrier walker options).sweeping position (kept ++ [armed]) rest
      (state.record (.passed armed.ruleIndex)) := by
  have recorded := running.record (rfl : neutral (.passed armed.ruleIndex) = true) trivial
  refine ⟨by simpa using recorded, fun other member => ?_⟩
  change .passed other.ruleIndex ∈ currentSweep ([.passed armed.ruleIndex] ++ _)
  rw [currentSweep_append (by simp)]
  rcases mem_append.mp member with before | here
  · exact mem_append_right _ (passed other before)
  · simp_all

/-- The commitment of an armed rule that matched and can be used. -/
theorem commits_armed {kept rest : List ArmedRule} {armed : ArmedRule} {commit : Commit}
    {response : Option Msg} (running : Running walker options position (kept ++ armed :: rest) state)
    (lawful : Lawful walker options
      (.judged (state.judgement armed.ruleIndex armed.rule armed.options response)) state.events)
    (matched : (state.judgement armed.ruleIndex armed.rule armed.options response).matched = true)
    (committed : (walker.commitArmed armed
      (state.judge armed.ruleIndex armed.rule armed.options response).2).1 = some commit)
    (events : after.events = .committed armed.ruleIndex ::
      (state.judge armed.ruleIndex armed.rule armed.options response).2.events) :
    (barrier walker options).committed commit after := by
  have armedFor := running.armedFor armed (by simp)
  have spec := commitArmed_spec walker armed
    (state.judge armed.ruleIndex armed.rule armed.options response).2
  rw [committed] at spec
  obtain ⟨usable, spec⟩ := spec
  have ended : Over walker options after :=
    running.commit lawful ⟨armedFor.race, matched, usable⟩ events
  cases commit with
  | result => exact ended
  | pending exchange =>
    obtain ⟨sameIndex, server, speculative, action, route, resolved⟩ := spec exchange rfl
    have isRace : IsRace walker exchange.index :=
      ⟨armed.rule, sameIndex ▸ armedFor.isRule, armedFor.race⟩
    have inForce : optionsAt options armed.ruleIndex after.events = armed.options := by
      rw [events, armedFor.options_eq]
      rfl
    refine ⟨ended, fun plain => absurd isRace plain, fun _ => ?_⟩
    rw [SentInForce, sameIndex, armedFor.isRule]
    exact ⟨server, speculative, action, route, inForce ▸ resolved⟩

/-- Arming the race rule that the walk is at. -/
theorem arms_rule (running : Running walker options state.ruleIndex state.armedRules state)
    (isRule : walker.rules[state.ruleIndex]? = some rule) (race : rule.race = true) :
    (barrier walker options).passed (state.ruleIndex + 1)
      ((walker.newArmedRule rule state).2.arm (walker.newArmedRule rule state).1) := by
  have inspected := walker.newArmedRule_inspected rule state
  have complete := walker.newArmedRule_complete rule state
  obtain ⟨index, armedRule, armedOptions⟩ := walker.newArmedRule_fields rule state
  have running := passed_observed running inspected.observed
  generalize walker.newArmedRule rule state = result at *
  obtain ⟨armed, seen⟩ := result
  refine running.arm index ?_ ?_ ?_ complete (congrArg (WalkEvent.armed · _ :: _) index) rfl rfl
  · rw [armedRule, isRule]
  · rw [armedRule, race]
  · rw [armedOptions, inspected.control]

theorem barrier_preserved (raceBound : RaceBound walker.rules) :
    (barrier walker options).Preserved walker := by
  have plain {position : Nat} {rule : DNSRule} (walked : Walked walker position rule) :
      rule.race = false := by
    by_contra race
    rw [Bool.not_eq_false] at race
    have bound := raceBound rule (mem_of_getElem? walked.isRule) race
    rw [walked.plain race] at bound
    cases bound
  have notRace {position : Nat} {rule : DNSRule} (walked : Walked walker position rule) :
      ¬IsRace walker position := not_isRace walked.isRule (plain walked)
  constructor
  case stable =>
    exact fun _ => ⟨fun running moved => passed_observed running moved.observed,
      fun running => passed_observed running (walker.settleDNSFutures_observed _)⟩
  case judge =>
    exact fun response walked running _ =>
      running.judge_plain walked.isRule (plain walked) _ response
  case advance => exact fun walked running => running.advance (notRace walked)
  case update => exact fun _ walked running => running.update (notRace walked) rfl rfl rfl
  case anonymous | terminal | index => exact fun _ running => running.congr rfl rfl rfl
  case speculate => exact fun running => running.record rfl trivial
  case effect =>
    exact fun running noneArmed => running.record rfl (Running.effect (noneArmed ▸ running))
  case launch =>
    exact fun _ _ running => passed_observed running (walker.launchDNSEvaluate_observed ..)
  case launchTagged =>
    intro _ _ state _ tag _ _ transport queryOptions walked _ _ running
    have launched := passed_observed running
      (walker.launchDNSEvaluate_observed tag transport queryOptions state)
    exact (launched.advance (notRace walked)).congr rfl rfl rfl
  case arm => exact arms_rule
  case settled => exact fun _ => trivial
  case inspected | unchanged => exact fun _ _ => trivial
  case sweep =>
    exact fun running =>
      ⟨running.record (rfl : neutral .swept = true) trivial, by simp [Passed]⟩
  case looked =>
    exact fun sweeping inspected =>
      ⟨sweeping.1.observed inspected.observed, sweeping.2.observed inspected.observed⟩
  case unready => exact fun sweeping => unready_passed sweeping.1 sweeping.2
  case missed =>
    intro _ _ armed _ state response sweeping _ done judged unused
    have lawful := sweeping.1.judge_armed sweeping.2 done response
    refine ⟨sweeping.1.judge_armed_undecided lawful fun decisive => ?_, sweeping.2.judge _ _ _ _⟩
    have spec := commitArmed_spec walker armed judged.2
    rw [unused decisive.matched] at spec
    exact spec decisive.usable
  case commits =>
    intro _ _ armed _ state _ response sweeping _ done judged matched committed
    exact commits_armed sweeping.1 (sweeping.1.judge_armed sweeping.2 done response) matched
      committed (congrArg (_ :: ·) (walker.commitArmed_inspected armed judged.2).events)
  case swept =>
    intro _ kept _ sweeping
    have running := sweeping.1
    rw [append_nil] at running
    exact running.congr rfl rfl rfl
  case suspend =>
    intro _ _ _ running noneArmed same sends
    refine ⟨running.ended, noneArmed, same ▸ Running.effect (noneArmed ▸ running), fun none => ?_⟩
    have sends := sends none
    rw [running.options_eq, ← same] at sends
    exact sends
  case stablePending =>
    exact fun _ => ⟨fun pending moved => pending.observed moved.observed,
      fun pending => pending.observed (walker.settleDNSFutures_observed _)⟩
  case noneArmed => exact PendingFor.noneArmed
  case sweptPending =>
    exact fun pending => pending.of_neutral pending.noneArmed.symm singleton_append.symm
      (by simp [neutral]) ⟨trivial, pending.lawful⟩
  case disarm => exact fun due => ⟨⟨due.1.lawful, due.1.decided⟩, rfl, due.2.1, due.2.2⟩
  case due => exact fun pending => ⟨pending.toOver, pending.effective, pending.sent⟩
  case ended => exact Running.ended
  case endedPending => exact PendingFor.toOver
  case finish => exact fun fuel due => finishPendingExchange_over fuel due.1 due.2.1 due.2.2

end Steps

/-! ## The barrier in every run -/

/-- How a race rule comes to commit: it has just been judged, it matched and its action can
be taken, and every race rule before it was judged without a decision or has an open
future in this sweep. -/
structure CommitsFirst (walker : Walker) (index : Nat) (past : List WalkEvent) : Prop where
  decisive : ∃ judgement earlier, past = .judged judgement :: earlier ∧ judgement.index = index ∧
    Decisive walker judgement
  first : ∀ before < index, IsRace walker before → .passed before ∈ currentSweep past ∨
    ∃ judgement, .judged judgement ∈ past ∧ judgement.index = before ∧ ¬Decisive walker judgement

theorem commitsFirst_of_always {walker : Walker} {options : DNSQueryOptions} {past : List WalkEvent}
    (lawful : Always (Lawful walker options) (.committed index :: past)) :
    CommitsFirst walker index past := by
  obtain ⟨⟨judgement, earlier, rfl, rfl, decisive⟩, ⟨-, race, undecided⟩, -⟩ := lawful
  refine ⟨⟨judgement, earlier, rfl, rfl, decisive⟩, fun before below isRace => ?_⟩
  by_cases judged : Judged before earlier
  · obtain ⟨other, member, same⟩ := judged
    exact .inr ⟨other, mem_cons_of_mem _ member, same, undecided other member⟩
  · refine .inl ?_
    have passed := (race decisive.race).inOrder before below isRace judged
    exact mem_cons_of_mem _ passed

/-- In every run of `exchangeWithRules`, a rule that is no race rule takes effect only when
every race rule before it has been judged and none has committed; a race rule is judged
once, when the futures it was bound to are resolved, with the options in force at its
position; of the race rules that are ready in a sweep the first one commits that matches
and whose action can be taken. -/
theorem race_rules_judged_before_effects (walker : Walker) (raceBound : RaceBound walker.rules)
    (fuel : Nat) (metadata : InboundContext) (options : DNSQueryOptions) :
    let events := (walker.exchangeWithRules fuel metadata options).2.events
    (∀ later index past, events = later ++ .effect index :: past → ¬IsRace walker index →
      ∀ race < index, IsRace walker race → Judged race past ∧ ∀ other, .committed other ∉ past) ∧
    (∀ later judgement past, events = later ++ .judged judgement :: past →
      judgement.rule.race = true → RaceJudged walker options judgement past) ∧
    (∀ later index past, events = later ++ .committed index :: past →
      CommitsFirst walker index past) ∧
    (∀ judgement, .judged judgement ∈ events → Decisive walker judgement →
      .committed judgement.index ∈ events) ∧
    (∀ later exchange past, events = later ++ .sent exchange :: past →
      SentInForce walker options exchange past) := by
  have ended : Over walker options (walker.exchangeWithRules fuel metadata options).2 :=
    (barrier_preserved raceBound).exchangeWithRules fuel (initial_running metadata)
  have lawful := always_iff.mp ended.lawful
  refine ⟨fun later index past split => lawful later _ past split,
    fun later judgement past split => (lawful later _ past split).2.1,
    fun later index past split => ?_, ended.decided,
    fun later exchange past split => lawful later _ past split⟩
  exact commitsFirst_of_always (Always.suffix (split ▸ ended.lawful))

/-! ## Two race rules in one sweep -/

/-- A race rule with `match_response: t` and the `response_rcode`, to this server. -/
def raceRule (rcode : Nat) (server : String) : DNSRule where
  tree := .default
    { items := [fun input => input.dnsResponse.any fun response => response.rcode == rcode]
      matchResponse := true
      matchResponseTag := "t" }
  action := .route server false {}
  race := true

def plainRule : DNSRule where
  tree := .default { items := [fun input => input.domain == "example.org"] }
  action := .route "c" false {}

/-- The servers `a`, `b` and `c` exist; the query of the `evaluate` rule completes while
the walk waits. -/
def exampleWalker (rules : List DNSRule) : Walker where
  router :=
    { transport := fun server => if server ∈ ["a", "b", "c"] then some ⟨server, false⟩ else none
      defaultTransport := ⟨"default", false⟩ }
  client := { evaluate := fun _ _ _ => .ok positiveAnswer, exchange := fun _ _ => .ok positiveAnswer }
  schedule := { running := fun _ _ => [], waiting := fun _ => .ok 0 }
  rules := rules
  message := question
  allowFakeIP := true

def isRaceMatch (index : Nat) : WalkEvent → Bool
  | .judged judgement => judgement.index == index && judgement.rule.race && judgement.matched
  | _ => false

def commits (index : Nat) : WalkEvent → Bool
  | .committed position => position == index
  | _ => false

def takesEffect (index : Nat) : WalkEvent → Bool
  | .effect position => position == index
  | _ => false

/-- Both race rules are ready in the last sweep and match. The first one is routed to a
server that does not exist, and the second one commits. -/
theorem missing_server_is_passed_over :
    let walker := exampleWalker [evaluateRule, raceRule 0 "missing", raceRule 0 "b"]
    let run := walker.exchangeWithRules 4 exampleQuery {}
    RaceBound walker.rules ∧
    (currentSweep run.2.events).any (isRaceMatch 1) = true ∧
    (currentSweep run.2.events).any (isRaceMatch 2) = true ∧
    run.2.events.any (commits 1) = false ∧ run.2.events.any (commits 2) = true ∧
    run.1 = some { response := some positiveAnswer, transport := some ⟨"b", false⟩ } := by
  refine ⟨?_, by decide +kernel, by decide +kernel, by decide +kernel, by decide +kernel,
    by decide +kernel⟩
  intro rule member
  simp only [exampleWalker, mem_cons, not_mem_nil, or_false] at member
  rcases member with rfl | rfl | rfl <;> decide

/-- A plain rule behind a race rule that misses takes effect after that. -/
theorem plain_rule_waits_for_race_rule :
    let walker := exampleWalker [evaluateRule, raceRule 3 "b", plainRule]
    let run := walker.exchangeWithRules 4 exampleQuery {}
    RaceBound walker.rules ∧ IsRace walker 1 ∧ ¬IsRace walker 2 ∧
    run.1 = some { response := some positiveAnswer, transport := some ⟨"c", false⟩ } ∧
    ∃ past, run.2.events = .effect 2 :: past ∧ Judged 1 past := by
  intro walker run
  have raceBound : RaceBound walker.rules := by
    intro rule member
    simp only [walker, exampleWalker, mem_cons, not_mem_nil, or_false] at member
    rcases member with rfl | rfl | rfl <;> decide
  have isRace : IsRace walker 1 := ⟨_, rfl, rfl⟩
  have plain : ¬IsRace walker 2 := by
    rintro ⟨rule, found, race⟩
    obtain rfl : plainRule = rule := Option.some.inj found
    cases race
  have last : run.2.events.head?.any (takesEffect 2) = true := by decide +kernel
  have barrier := (race_rules_judged_before_effects walker raceBound 4 exampleQuery {}).1
  refine ⟨raceBound, isRace, plain, by decide +kernel, ?_⟩
  cases events : run.2.events <;> rw [events] at last
  case nil => cases last
  case cons event past =>
    cases event with
    | effect position =>
      obtain rfl : position = 2 := by simpa [takesEffect] using last
      exact ⟨past, rfl, (barrier [] 2 past events plain 1 (by decide) isRace).1⟩
    | _ => cases last

end AmneziaBox.Guarantees.RaceBarrier
