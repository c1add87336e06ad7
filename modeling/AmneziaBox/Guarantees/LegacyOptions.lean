import AmneziaBox.Source.DNS.LegacyRouter

/-!
# Query options in the legacy exchange

A `route-options` rule updates the options of the query that a later rule sends.
The legacy loops call `matchDNS` again after a refused response, from the next rule
on and with the caller's options: what the rules before the refused one had set is
gone. `last_options_eq_expected_iff` says exactly when that does not show: every
option that those rules changed is set once more on the way to the rule that sends.
-/
namespace AmneziaBox.Guarantees.LegacyOptions
open Source.Adapter Source.Rule Source.DNS Source.DNS.Example List

/-! ## `matchDNS` without metadata -/

/-- What one rule does to the walk of `matchDNS`: nothing, update the options, or end
the walk with a server to ask or with a final action. -/
inductive Step where
  | skip
  | options (action : RouteOptions)
  | route (action : RouteOptions) (transport : DNSTransport)
  | final
  deriving DecidableEq

/-- The rule is looked at and matches before the lookup. -/
def takes (isAddressQuery : Bool) (base : InboundContext) (rule : DNSRule) : Bool :=
  !(rule.tree.withAddressLimit && !isAddressQuery) && (rule.tree.legacyPreMatch (cleared base)).1

/-- The update of a matched `route` rule: its own options, and no cache for fakeip. -/
def routeUpdate (action : RouteOptions) (transport : DNSTransport) (options : DNSQueryOptions) :
    DNSQueryOptions :=
  let options := applyLegacyOptions action options
  if transport.isFakeIP then { options with disableCache := true } else options

def classify (router : Router) (allowFakeIP isAddressQuery : Bool) (base : InboundContext)
    (rule : DNSRule) : Step :=
  if takes isAddressQuery base rule then
    match rule.action with
    | .route server _ action =>
      match router.transport server with
      | none => .skip
      | some transport =>
        if transport.isFakeIP && !allowFakeIP then .skip
        else .route action transport
    | .routeOptions action => .options action
    | .reject _ => .final
    | .predefined _ => .final
    | _ => .skip
  else .skip

/-- The walk over the rules, given what each of them does. -/
def select (router : Router) (step : DNSRule → Step) :
    List DNSRule → Nat → DNSQueryOptions → DNSMatch × DNSQueryOptions
  | [], _, options => (⟨some router.defaultTransport, none⟩, options)
  | rule :: rest, index, options =>
    match step rule with
    | .skip => select router step rest (index + 1) options
    | .options action => select router step rest (index + 1) (applyLegacyOptions action options)
    | .route action transport =>
      (⟨some transport, some (index, rule)⟩, routeUpdate action transport options)
    | .final => (⟨none, some (index, rule)⟩, options)

/-- Metadata in which the rules see what they see in `base`. -/
structure Sees (base metadata : InboundContext) : Prop where
  same : cleared metadata = cleared base
  unignored : metadata.ignoreDestinationIPCIDRMatch = false

theorem Sees.after_legacyPreMatch {base metadata : InboundContext} (sees : Sees base metadata)
    (tree : DNSRuleTree) : Sees base (tree.legacyPreMatch (cleared metadata)).2 := by
  obtain ⟨groups, result⟩ := tree.legacyPreMatch_frame
    (rfl : (cleared metadata).deferredIPCIDRMatchGroups = 0) sees.unignored
  rw [result]
  exact ⟨sees.same, sees.unignored⟩

variable (router : Router)

theorem matchDNSFrom_eq (allowFakeIP isAddressQuery : Bool) (base : InboundContext)
    (rules : List DNSRule) (index : Nat) (metadata : InboundContext) (options : DNSQueryOptions)
    (sees : Sees base metadata) :
    ∃ metadata', Sees base metadata' ∧
      matchDNSFrom router allowFakeIP isAddressQuery rules index metadata options =
        ((select router (classify router allowFakeIP isAddressQuery base) rules index options).1,
          (select router (classify router allowFakeIP isAddressQuery base) rules index options).2,
          metadata') := by
  induction rules generalizing index metadata options with
  | nil => exact ⟨metadata, sees, rfl⟩
  | cons rule rest ih =>
    rw [matchDNSFrom, select, classify, takes]
    by_cases skipped : (rule.tree.withAddressLimit && !isAddressQuery) = true
    · simp only [skipped, if_true, Bool.not_true, Bool.false_and, Bool.false_eq_true, if_false]
      exact ih (index + 1) metadata options sees
    · have next := sees.after_legacyPreMatch rule.tree
      rw [sees.same] at next ⊢
      rw [Bool.not_eq_true] at skipped
      simp only [skipped, Bool.false_eq_true, if_false, Bool.not_false, Bool.true_and]
      by_cases matched : (rule.tree.legacyPreMatch (cleared base)).1 = true
      · simp only [matched, if_true]
        cases rule.action with
        | route server speculative action =>
          cases found : router.transport server with
          | none =>
            simp only [found]
            exact ih (index + 1) _ options next
          | some transport =>
            simp only [found]
            by_cases fake : (transport.isFakeIP && !allowFakeIP) = true
            · simp only [fake, if_true]
              exact ih (index + 1) _ options next
            · simp only [fake, routeUpdate]
              exact ⟨_, next, rfl⟩
        | routeOptions action => exact ih (index + 1) _ (applyLegacyOptions action options) next
        | reject | predefined => exact ⟨_, next, rfl⟩
        | none | evaluate | respond => exact ih (index + 1) _ options next
      · simp only [matched]
        exact ih (index + 1) _ options next

/-! ## Which options a walk ends with -/

namespace Step

/-- The update that the rule makes for the rules after it. -/
def carried : Step → DNSQueryOptions → DNSQueryOptions
  | .options action => applyLegacyOptions action
  | _ => id

/-- The update that the rule makes for its own query. -/
def own : Step → DNSQueryOptions → DNSQueryOptions
  | .route action transport => routeUpdate action transport
  | _ => id

def transport : Step → Option DNSTransport
  | .route _ transport => some transport
  | _ => none

/-- The rule ends the walk. -/
def stops : Step → Bool
  | .route _ _ => true
  | .final => true
  | _ => false

end Step

/-- The options after these rules, in list order. -/
def accumulate (step : DNSRule → Step) (rules : List DNSRule) (options : DNSQueryOptions) :
    DNSQueryOptions :=
  rules.foldl (fun options rule => (step rule).carried options) options

variable (step : DNSRule → Step) (rules : List DNSRule)

theorem select_cases (index : Nat) (options : DNSQueryOptions) :
    select router step rules index options =
      (⟨some router.defaultTransport, none⟩, accumulate step rules options) ∨
    ∃ offset rule, rules[offset]? = some rule ∧ (step rule).stops = true ∧
      select router step rules index options =
        (⟨(step rule).transport, some (index + offset, rule)⟩,
          (step rule).own (accumulate step (rules.take offset) options)) := by
  induction rules generalizing index options with
  | nil => exact .inl rfl
  | cons first rest ih =>
    have later : (step first).stops = false →
        select router step (first :: rest) index options =
          select router step rest (index + 1) ((step first).carried options) := by
      intro passes
      rw [select]
      cases effect : step first <;> simp_all [Step.stops, Step.carried]
    cases stops : (step first).stops with
    | true =>
      refine .inr ⟨0, first, rfl, stops, ?_⟩
      rw [select]
      cases effect : step first <;> simp_all [Step.stops, Step.own, Step.transport, accumulate]
    | false =>
      rw [later stops]
      rcases ih (index + 1) ((step first).carried options) with all | ⟨offset, rule, at_, ends, result⟩
      · exact .inl all
      · refine .inr ⟨offset + 1, rule, at_, ends, ?_⟩
        rw [result, Nat.add_assoc, Nat.add_comm 1 offset]
        rfl

/-! ## Which options a run sends -/

/-- The rules before the one that sends; all of them for the default server. -/
def before : Option Nat → List DNSRule
  | none => rules
  | some index => rules.take index

/-- The update by the rule that sends. -/
def ownAt (sender : Option Nat) (options : DNSQueryOptions) : DNSQueryOptions :=
  match sender.bind (rules[·]?) with
  | none => options
  | some rule => (step rule).own options

/-- The options of a query when the rules from `start` on contribute to them. -/
def optionsFrom (start : Nat) (options : DNSQueryOptions) (sender : Option Nat) :
    DNSQueryOptions :=
  finalizeExchangeOptions router
    (ownAt step rules sender (accumulate step ((before rules sender).drop start) options))

/-- The documented options: every matched `route-options` rule before the sender, in
list order, and then the sender itself. -/
def expectedOptions (options : DNSQueryOptions) (sender : Option Nat) : DNSQueryOptions :=
  optionsFrom router step rules 0 options sender

/-- Where the last round of a run started: behind the rule of the query before. -/
def resumedAt (start : Nat) (earlier : List LegacySend) : Nat :=
  match earlier.getLast? with
  | none => start
  | some sent => (sent.rule.map (· + 1)).getD 0

theorem resumedAt_cons (start : Nat) (sent : LegacySend) (earlier : List LegacySend) :
    resumedAt start (sent :: earlier) = resumedAt ((sent.rule.map (· + 1)).getD 0) earlier := by
  cases earlier with
  | nil => rfl
  | cons next rest => simp only [resumedAt, getLast?_cons_cons]; rfl

section Loop
variable {ρ : Type} (caller : LegacyCaller ρ)
  (base : InboundContext) (options : DNSQueryOptions)

/-- What a rule does in the rounds of this caller. -/
abbrev stepOf : DNSRule → Step := classify router caller.allowFakeIP caller.isAddressQuery base

/-- A query sent by a round that started at `start`. -/
structure SentFrom (start : Nat) (sent : LegacySend) : Prop where
  options_eq : sent.options =
    optionsFrom router (stepOf router caller base) rules start options sent.rule
  start_le : ∀ index ∈ sent.rule, start ≤ index

/-- One round: what `matchDNS` found, and the options it found it with. -/
theorem round_spec (start : Nat) (metadata : InboundContext) (sees : Sees base metadata) :
    ∃ found dnsOptions metadata',
      matchDNS router rules caller.allowFakeIP start caller.isAddressQuery metadata options =
        (found, dnsOptions, metadata') ∧ Sees base metadata' ∧
      (∀ index rule, found.rule = some (index, rule) → start ≤ index ∧ index < rules.length) ∧
      finalizeExchangeOptions router dnsOptions = optionsFrom router (stepOf router caller base)
        rules start options (found.rule.map Prod.fst) := by
  obtain ⟨metadata', next, result⟩ := matchDNSFrom_eq router caller.allowFakeIP
    caller.isAddressQuery base (rules.drop start) start metadata options sees
  refine ⟨_, _, metadata', result, next, ?_⟩
  rcases select_cases router (stepOf router caller base) (rules.drop start) start options with
    all | ⟨offset, rule, here, _, stopped⟩
  · rw [all]
    refine ⟨fun _ _ chosen => absurd chosen (by simp), ?_⟩
    simp [optionsFrom, ownAt, before]
  · rw [stopped]
    rw [List.getElem?_drop] at here
    constructor
    · rintro index _ ⟨⟩
      exact ⟨Nat.le_add_right _ _, (List.getElem?_eq_some_iff.mp here).1⟩
    · simp only [Option.map_some, optionsFrom, ownAt, Option.bind_some, here, before]
      rw [List.drop_take, Nat.add_sub_cancel_left]

theorem legacyLoop_spec (fuel start : Nat) (metadata : InboundContext) (sees : Sees base metadata)
    (inside : start ≤ rules.length) (enough : rules.length + 1 - start ≤ fuel) :
    ∃ run, legacyLoop router rules caller options fuel start metadata = some run ∧
      ∀ earlier last, run.sends = earlier ++ [last] →
        SentFrom router rules caller base options (resumedAt start earlier) last := by
  induction fuel generalizing start metadata with
  | zero => omega
  | succ fuel ih =>
    obtain ⟨found, dnsOptions, metadata', round, next, index, sent⟩ :=
      round_spec router rules caller base options start metadata sees
    rw [legacyLoop, round]
    dsimp only
    have fresh : SentFrom router rules caller base options start
        ⟨found.rule.map Prod.fst, found.transport, finalizeExchangeOptions router dnsOptions⟩ := by
      refine ⟨sent, ?_⟩
      intro k member
      obtain ⟨⟨_, rule⟩, chosen, rfl⟩ := Option.map_eq_some_iff.mp member
      exact (index _ rule chosen).1
    split
    · refine ⟨_, rfl, ?_⟩
      intro earlier last sends
      simp at sends
    · split
      · rename_i refused
        -- only a rule has a response check, so the next round starts behind that rule
        cases chosen : found.rule with
        | none => simp [chosen, addressLimitResponseCheck] at refused
        | some pair =>
          obtain ⟨k, rule⟩ := pair
          have bounds := index k rule chosen
          obtain ⟨run, ran, runs⟩ := ih (k + 1) metadata' next (by omega) (by omega)
          refine ⟨_, by simp only [Option.map_some, Option.getD_some, ran]; rfl, ?_⟩
          intro earlier last sends
          cases earlier with
          | nil =>
            obtain ⟨rfl, _⟩ := cons_eq_cons.mp sends
            rw [chosen] at fresh
            exact fresh
          | cons first rest =>
            obtain ⟨rfl, later⟩ := cons_eq_cons.mp sends
            rw [resumedAt_cons]
            exact runs rest last later
      · refine ⟨_, rfl, ?_⟩
        intro earlier last sends
        cases earlier with
        | nil =>
          obtain ⟨rfl, _⟩ := cons_eq_cons.mp sends
          exact fresh
        | cons first rest => simp at sends

end Loop

/-! ## Option by option -/

/-- The options a rule can set; the client subnet and its removal go together. -/
inductive OptionField where
  | strategy | disableCache | rewriteTTL | timeout | clientSubnet
  deriving DecidableEq

namespace OptionField

/-- Both options give the query the same value here. -/
def Same (router : Router) (first second : DNSQueryOptions) : OptionField → Prop
  | .strategy => (finalizeExchangeOptions router first).strategy =
      (finalizeExchangeOptions router second).strategy
  | .disableCache => first.disableCache = second.disableCache
  | .rewriteTTL => first.rewriteTTL = second.rewriteTTL
  | .timeout => first.timeout = second.timeout
  | .clientSubnet => first.clientSubnet = second.clientSubnet ∧
      first.removeClientSubnet = second.removeClientSubnet

/-- The action sets the option. -/
def SetBy (action : RouteOptions) : OptionField → Prop
  | .strategy => action.strategy ≠ .asIS
  | .disableCache => action.disableCache = true
  | .rewriteTTL => action.rewriteTTL ≠ none
  | .timeout => action.timeout > 0
  | .clientSubnet => action.clientSubnet ≠ none ∨ action.removeClientSubnet = true

theorem same_applyLegacyOptions (action : RouteOptions) (first second : DNSQueryOptions)
    (field : OptionField) :
    field.Same router (applyLegacyOptions action first) (applyLegacyOptions action second) ↔
      field.SetBy action ∨ field.Same router first second := by
  rw [applyLegacyOptions_eq, applyLegacyOptions_eq]
  cases field with
  | strategy =>
    by_cases unset : action.strategy = .asIS <;>
      simp [Same, SetBy, finalizeExchangeOptions_strategy, unset]
  | disableCache => cases set : action.disableCache <;> simp [Same, SetBy, set]
  | rewriteTTL => cases set : action.rewriteTTL <;> simp [Same, SetBy, set]
  | timeout => by_cases set : action.timeout > 0 <;> simp [Same, SetBy, set]
  | clientSubnet =>
    cases set : action.clientSubnet <;> cases removed : action.removeClientSubnet <;>
      simp [Same, SetBy, set, removed]

end OptionField

/-- The rule sets the option for the rules after it. -/
def Step.Carries (field : OptionField) : Step → Prop
  | .options action => field.SetBy action
  | _ => False

/-- The rule sets the option for its own query. -/
def Step.Sets (field : OptionField) : Step → Prop
  | .route action transport =>
    field.SetBy action ∨ (field = .disableCache ∧ transport.isFakeIP = true)
  | _ => False

theorem same_carried (step : Step) (first second : DNSQueryOptions) (field : OptionField) :
    field.Same router (step.carried first) (step.carried second) ↔
      step.Carries field ∨ field.Same router first second := by
  cases step with
  | options action => exact field.same_applyLegacyOptions router action first second
  | _ => simp [Step.carried, Step.Carries]

theorem same_own (step : Step) (first second : DNSQueryOptions) (field : OptionField) :
    field.Same router (step.own first) (step.own second) ↔
      step.Sets field ∨ field.Same router first second := by
  cases step with
  | route action transport =>
    have applied := field.same_applyLegacyOptions router action first second
    simp only [Step.own, Step.Sets, routeUpdate]
    cases transport.isFakeIP with
    | false => simpa using applied
    | true => cases field <;> simp_all [OptionField.Same, finalizeExchangeOptions_strategy]
  | _ => simp [Step.own, Step.Sets]

theorem same_accumulate (first second : DNSQueryOptions) (field : OptionField) :
    field.Same router (accumulate step rules first) (accumulate step rules second) ↔
      (∃ rule ∈ rules, (step rule).Carries field) ∨ field.Same router first second := by
  induction rules generalizing first second with
  | nil => simp [accumulate]
  | cons rule rest ih =>
    refine (ih _ _).trans ?_
    rw [same_carried, exists_mem_cons_iff, or_left_comm, ← or_assoc]

theorem same_ownAt (sender : Option Nat) (first second : DNSQueryOptions) (field : OptionField) :
    field.Same router (ownAt step rules sender first) (ownAt step rules sender second) ↔
      (∃ rule, sender.bind (rules[·]?) = some rule ∧ (step rule).Sets field) ∨
        field.Same router first second := by
  unfold ownAt
  cases sender.bind (rules[·]?) with
  | none => simp
  | some rule => simp [same_own]

/-! The two options that no rule of a legacy list reaches. -/

/-- The options that rules do not set. -/
def fixedOptions (options : DNSQueryOptions) : DomainStrategy × Bool :=
  (options.lookupStrategy, options.disableOptimisticCache)

theorem fixedOptions_apply (action : RouteOptions) (options : DNSQueryOptions) :
    fixedOptions (applyLegacyOptions action options) = fixedOptions options := by
  rw [applyLegacyOptions_eq]
  simp [fixedOptions]

theorem fixedOptions_carried (step : Step) (options : DNSQueryOptions) :
    fixedOptions (step.carried options) = fixedOptions options := by
  cases step with
  | options action => exact fixedOptions_apply action options
  | _ => rfl

theorem fixedOptions_accumulate (options : DNSQueryOptions) :
    fixedOptions (accumulate step rules options) = fixedOptions options := by
  induction rules generalizing options with
  | nil => rfl
  | cons rule rest ih =>
    exact (ih _).trans (fixedOptions_carried (step rule) options)

theorem fixedOptions_ownAt (sender : Option Nat) (options : DNSQueryOptions) :
    fixedOptions (ownAt step rules sender options) = fixedOptions options := by
  unfold ownAt
  split
  · rfl
  · rename_i rule _
    cases step rule with
    | route action transport =>
      refine Eq.trans ?_ (fixedOptions_apply action options)
      simp only [Step.own, routeUpdate]
      split <;> rfl
    | _ => rfl

theorem finalize_eq_iff {first second : DNSQueryOptions}
    (fixed : fixedOptions first = fixedOptions second) :
    finalizeExchangeOptions router first = finalizeExchangeOptions router second ↔
      ∀ field : OptionField, field.Same router first second := by
  obtain ⟨lookup, optimistic⟩ := Prod.mk.inj fixed
  have unfolded : ∀ options : DNSQueryOptions, finalizeExchangeOptions router options =
      { options with strategy := (finalizeExchangeOptions router options).strategy } := by
    intro options
    unfold finalizeExchangeOptions
    split <;> rfl
  constructor
  · intro equal field
    rw [unfolded first, unfolded second, DNSQueryOptions.mk.injEq] at equal
    cases field <;> simp [OptionField.Same, equal]
  · intro same
    rw [unfolded first, unfolded second, DNSQueryOptions.mk.injEq]
    exact ⟨same .strategy, lookup, same .disableCache, optimistic, same .rewriteTTL, same .timeout,
      same .clientSubnet⟩

/-! ## The last query -/

theorem accumulate_append (rules rest : List DNSRule) (options : DNSQueryOptions) :
    accumulate step (rules ++ rest) options = accumulate step rest (accumulate step rules options) :=
  foldl_append

/-- Rules before the sender: those of the earlier rounds and those of the last one. -/
theorem before_eq_append (start : Nat) (sender : Option Nat) (le : ∀ index ∈ sender, start ≤ index) :
    before rules sender = rules.take start ++ (before rules sender).drop start := by
  cases sender with
  | none => exact (take_append_drop start rules).symm
  | some index =>
    have prefixes : (rules.take index).take start = rules.take start := by
      rw [take_take, Nat.min_eq_left (le index rfl)]
    simp only [before]
    conv_lhs => rw [← take_append_drop start (rules.take index), prefixes]

/-- A run of the legacy loop ends. Its last query has the documented options exactly
when each option on which the rules of the earlier rounds had an effect is set again:
by a `route-options` rule of the last round, or by the rule that sends. -/
theorem last_options_eq_expected_iff {ρ : Type} (router : Router) (rules : List DNSRule)
    (caller : LegacyCaller ρ) (options : DNSQueryOptions) (metadata : InboundContext)
    (unignored : metadata.ignoreDestinationIPCIDRMatch = false) :
    ∃ run, legacyLoop router rules caller options (legacyFuel rules) 0 metadata = some run ∧
      ∀ earlier last, run.sends = earlier ++ [last] →
        (last.options =
            expectedOptions router (stepOf router caller metadata) rules options last.rule ↔
          ∀ field : OptionField,
            field.Same router options
              (accumulate (stepOf router caller metadata) (rules.take (resumedAt 0 earlier))
                options) ∨
            (∃ rule ∈ (before rules last.rule).drop (resumedAt 0 earlier),
              (stepOf router caller metadata rule).Carries field) ∨
            ∃ rule, last.rule.bind (rules[·]?) = some rule ∧
              (stepOf router caller metadata rule).Sets field) := by
  obtain ⟨run, ran, runs⟩ := legacyLoop_spec router rules caller metadata options
    (legacyFuel rules) 0 metadata ⟨rfl, unignored⟩ (Nat.zero_le _) (Nat.le_refl _)
  refine ⟨run, ran, ?_⟩
  intro earlier last sends
  obtain ⟨options_eq, start_le⟩ := runs earlier last sends
  -- both sides end with the rules of the last round; only what they start from differs
  have split := before_eq_append rules (resumedAt 0 earlier) last.rule start_le
  rw [options_eq, expectedOptions, optionsFrom, optionsFrom, drop_zero]
  conv_lhs => rhs; rw [split, accumulate_append]
  rw [finalize_eq_iff router (by simp only [fixedOptions_ownAt, fixedOptions_accumulate])]
  apply forall_congr'
  intro field
  rw [same_ownAt, same_accumulate]
  exact (or_left_comm.trans or_rotate).trans or_rotate

/-! ## A rule list that loses an option -/

def ttlRule : DNSRule where
  tree := .default { items := [fun input => input.domain == "example.org"] }
  action := .routeOptions { rewriteTTL := some 60 }

/-- A server for private addresses only. -/
def limitedRule : DNSRule where
  tree := .default { destinationIPCIDRItems := [.ipCIDR fun addr => addr == .ipv4 0x0a000001] }
  action := .route "local" false {}

def remoteRule : DNSRule where
  tree := .default { items := [fun input => input.domain == "example.org"] }
  action := .route "remote" false {}

def servers : Router where
  transport server := some ⟨server, false⟩
  defaultTransport := ⟨"default", false⟩

/-- Every server answers with one public address. -/
def publicClient : Exchanger := fun _ _ check =>
  let response : Msg :=
    { question with response := true, answer := [{ name := "example.org.", data := .a (.ipv4 0x08080808) }] }
  match check with
  | some accepts => if accepts (some response) then .ok response else .error .responseRejected
  | none => .ok response

/-- The options that `exchangeLegacy` sends with. -/
def sentOptions (rules : List DNSRule) : Option (List DNSQueryOptions) :=
  (exchangeLegacy servers publicClient rules exampleQuery question {}).map fun run =>
    run.sends.map LegacySend.options

/-- The rewritten TTL reaches the second server when the first rule is absent, and is
lost when the first server was asked and its response refused. -/
theorem refused_response_drops_options :
    sentOptions [ttlRule, remoteRule] = some [{ rewriteTTL := some 60 }] ∧
    sentOptions [ttlRule, limitedRule, remoteRule] = some [{ rewriteTTL := some 60 }, {}] ∧
    expectedOptions servers
      (stepOf servers (exchangeCaller publicClient question) exampleQuery)
      [ttlRule, limitedRule, remoteRule] {} (some 2) = { rewriteTTL := some 60 } := by
  decide +kernel

/-- With the option repeated behind the refused rule, the last query has it. -/
theorem repeated_option_is_sent :
    ∃ run, exchangeLegacy servers publicClient [ttlRule, limitedRule, ttlRule, remoteRule]
        exampleQuery question {} = some run ∧
      ∃ refused last, run.sends = [refused] ++ [last] ∧
        last.options = expectedOptions servers
          (stepOf servers (exchangeCaller publicClient question) exampleQuery)
          [ttlRule, limitedRule, ttlRule, remoteRule] {} last.rule := by
  obtain ⟨run, ran, runs⟩ := last_options_eq_expected_iff servers
    [ttlRule, limitedRule, ttlRule, remoteRule] (exchangeCaller publicClient question) {}
    exampleQuery rfl
  have traced : (exchangeLegacy servers publicClient
      [ttlRule, limitedRule, ttlRule, remoteRule] exampleQuery question {}).map
        LegacyRun.sends =
      some ([⟨some 1, some ⟨"local", false⟩, { rewriteTTL := some 60 }⟩] ++
        [⟨some 3, some ⟨"remote", false⟩, { rewriteTTL := some 60 }⟩]) := by
    decide +kernel
  rw [exchangeLegacy, ran] at traced
  have sends := Option.some.inj traced
  have repeated : stepOf servers (exchangeCaller publicClient question) exampleQuery
      ttlRule = .options { rewriteTTL := some 60 } := by decide +kernel
  have earlier : accumulate
      (stepOf servers (exchangeCaller publicClient question) exampleQuery)
      [ttlRule, limitedRule] {} = { rewriteTTL := some 60 } := by decide +kernel
  refine ⟨run, ran, _, _, sends, (runs _ _ sends).mpr ?_⟩
  intro field
  cases field with
  | rewriteTTL =>
    refine .inr (.inl ⟨ttlRule, by simp [resumedAt, before], ?_⟩)
    simp [repeated, Step.Carries, OptionField.SetBy]
  | _ => simp [resumedAt, earlier, OptionField.Same, finalizeExchangeOptions_strategy]

end AmneziaBox.Guarantees.LegacyOptions
