import AmneziaBox.Source.Rule.Verdicts

/-!
# The two flags of a rule-set item

`rule_set_ip_cidr_match_source` makes the `ip_cidr` items of the referenced sets
test the source address, `rule_set_ip_cidr_accept_empty` makes them accept a
connection without addresses. The flags are not parameters: `prepareNestedMatch`
writes them into the rule cache, and the items read them there. What they are to
mean is spelled out on the rules themselves (`spellOut`), where no flag is left.

`matchAnyHeadlessRule` resets the match cache and keeps the flags;
`abstractLogicalRule.Match` resets the whole rule cache and drops them. So the
flags reach the default rules of a set and not the default rules inside its
logical rules (`logical_set_ignores_flags`). Where those that an evaluation comes
to have no destination IP items, or miss by their other fields, `Match` and the
spelled out rule give the same verdict (`matchOn_eq_spellOut`).
-/
namespace AmneziaBox.Guarantees.RuleSetFlags
open Source.Adapter Source.Rule Library AbstractDefaultRule RuleSetItem

/-! ## The flags spelled out -/

/-- The `source_ip_cidr` item with the prefixes of an `ip_cidr` item. -/
def asSource : DestinationIPItem → RuleItem
  | .ipCIDR ipSet => sourceIPCIDRItem ipSet
  | .predicate holds => holds

/-- The `ip_cidr` item that accepts an empty address list by itself. -/
def acceptingEmpty : DestinationIPItem → DestinationIPItem
  | .ipCIDR ipSet => .predicate fun input =>
      ipCIDRMatch ipSet false { toMatchInput := input, ipCIDRAcceptEmpty := true }
  | .predicate holds => .predicate holds

/-- A default rule of a set as the flags of the item ask for it. -/
def spellOutDefault (item : RuleSetItem) (rule : DefaultHeadlessRule) : DefaultHeadlessRule :=
  if item.ipCIDRMatchSource then
    { rule with
      sourceAddressItems := rule.sourceAddressItems ++ rule.destinationIPCIDRItems.map asSource
      destinationIPCIDRItems := [] }
  else if item.ipCIDRAcceptEmpty then
    { rule with destinationIPCIDRItems := rule.destinationIPCIDRItems.map acceptingEmpty }
  else rule

def spellOutSet (item : RuleSetItem) (ruleSet : RuleSet) : RuleSet where
  rules := ruleSet.rules.map (RuleTree.map (spellOutDefault item))
  metadata :=
    { ruleSet.metadata with
      containsIPCIDRRule := ruleSet.metadata.containsIPCIDRRule && !item.ipCIDRMatchSource }

/-- The same sets, at every depth, without flags. -/
def spellOutItem (item : RuleSetItem) : RuleSetItem where
  setList := item.setList.map (spellOutSet item)

def spellOutRule (rule : DefaultRule) : DefaultRule :=
  { rule with ruleSetItem := rule.ruleSetItem.map spellOutItem }

def spellOut : RouteRule → RouteRule := RuleTree.map spellOutRule

/-! ## One default rule -/

/-- Two default rules that the evaluator cannot tell apart. -/
structure Alike (metadata metadata' : InboundContext) (rule rule' : DefaultHeadlessRule) :
    Prop where
  items : rule.matchItems metadata = rule'.matchItems metadata'
  required : rule.required metadata = rule'.required metadata'
  satisfied : rule.satisfied metadata = rule'.satisfied metadata'
  defers : rule.defersDestination metadata = rule'.defersDestination metadata'
  hasNoItems : rule.hasNoItems = rule'.hasNoItems
  invert : rule.invert = rule'.invert

variable {metadata metadata' : InboundContext}

theorem noSets (rule : DefaultHeadlessRule) : rule.ruleSetItem = none := by
  cases rule.ruleSetItem with
  | none => rfl
  | some item => exact item.elim

theorem Alike.verdict_eq {rule rule' : DefaultHeadlessRule}
    (alike : Alike metadata metadata' rule rule') :
    DefaultHeadlessRule.verdict metadata rule = DefaultHeadlessRule.verdict metadata' rule' := by
  unfold DefaultHeadlessRule.verdict verdict innerVerdict
  rw [noSets rule, noSets rule', alike.items, alike.required, alike.satisfied, alike.defers,
    alike.hasNoItems, alike.invert]
  rfl

theorem matchAnyItem_asSource (items : List DestinationIPItem)
    (source : metadata.ipCIDRMatchSource = true) (other : InboundContext)
    (same : other.toMatchInput = metadata.toMatchInput) :
    matchAnyItem (items.map asSource) other = matchAnyIPItem items metadata := by
  rw [matchAnyItem, matchAnyIPItem, List.any_map]
  apply any_congr_mem
  intro item _
  cases item with
  | ipCIDR ipSet =>
    simp [asSource, sourceIPCIDRItem, DestinationIPItem.matchOn, ipCIDRMatch, source, same]
  | predicate holds => simp [asSource, DestinationIPItem.matchOn, same]

theorem matchAnyIPItem_acceptingEmpty (items : List DestinationIPItem)
    (source : metadata.ipCIDRMatchSource = false) (accept : metadata.ipCIDRAcceptEmpty = true)
    (other : InboundContext) (same : other.toMatchInput = metadata.toMatchInput) :
    matchAnyIPItem (items.map acceptingEmpty) other = matchAnyIPItem items metadata := by
  rw [matchAnyIPItem, matchAnyIPItem, List.any_map]
  apply any_congr_mem
  intro item _
  cases item with
  | ipCIDR ipSet =>
    simp [acceptingEmpty, DestinationIPItem.matchOn, ipCIDRMatch, source, accept, same]
  | predicate holds => simp [acceptingEmpty, DestinationIPItem.matchOn, same]

theorem matchAnyItem_same (same : metadata'.toMatchInput = metadata.toMatchInput)
    (items : List RuleItem) : matchAnyItem items metadata' = matchAnyItem items metadata := by
  rw [matchAnyItem, same, matchAnyItem]

/-- What `Alike` asks for, read off the four group lists: the flags decide which
group the destination IP items join and nothing else. -/
theorem alike_matchSource (rule : DefaultHeadlessRule) (source : metadata.ipCIDRMatchSource = true)
    (same : metadata'.toMatchInput = metadata.toMatchInput) :
    Alike metadata metadata' rule
      { rule with
        sourceAddressItems := rule.sourceAddressItems ++ rule.destinationIPCIDRItems.map asSource
        destinationIPCIDRItems := [] } := by
  have moved := matchAnyItem_asSource rule.destinationIPCIDRItems source metadata rfl
  have ordinary := matchAnyItem_same same
  refine ⟨?_, ?_, ?_, ?_, ?_, rfl⟩
  · simp [matchItems, same]
  · simp [required, destinationIPCIDRMatchesSource, destinationIPCIDRMatchesDestination, source]
    cases rule.sourceAddressItems <;> cases rule.destinationIPCIDRItems <;> rfl
  · simp [satisfied, destinationIPCIDRMatchesSource, destinationIPCIDRMatchesDestination, source, moved,
      ordinary, nonempty_and_matchAnyIPItem]
  · simp [defersDestination, source]
  · simp only [hasNoItems]
    cases rule.sourceAddressItems <;> cases rule.destinationIPCIDRItems <;>
      simp

theorem alike_acceptEmpty (rule : DefaultHeadlessRule) (source : metadata.ipCIDRMatchSource = false)
    (source' : metadata'.ipCIDRMatchSource = false) (accept : metadata.ipCIDRAcceptEmpty = true)
    (ignore : metadata'.ignoreDestinationIPCIDRMatch = metadata.ignoreDestinationIPCIDRMatch)
    (same : metadata'.toMatchInput = metadata.toMatchInput) :
    Alike metadata metadata' rule
      { rule with destinationIPCIDRItems := rule.destinationIPCIDRItems.map acceptingEmpty } := by
  have answered := matchAnyIPItem_acceptingEmpty rule.destinationIPCIDRItems source accept metadata' same
  have ordinary := matchAnyItem_same same
  refine ⟨?_, ?_, ?_, ?_, ?_, rfl⟩
  · simp [matchItems, same]
  · simp [required, destinationIPCIDRMatchesSource,
      destinationIPCIDRMatchesDestination, source, source', ignore]
  · simp [satisfied, destinationIPCIDRMatchesSource,
      destinationIPCIDRMatchesDestination, source, source', ignore, answered,
      ordinary]
  · simp [defersDestination, source, source', ignore]
  · simp [hasNoItems]

variable (item : RuleSetItem)

/-- Under the flags of the item, a default rule is its spelled out form. -/
theorem spellOutDefault_alike (metadata : InboundContext) (rule : DefaultHeadlessRule) :
    Alike (item.prepareNestedMatch metadata) metadata.resetRuleCache rule
      (spellOutDefault item rule) := by
  unfold spellOutDefault
  by_cases source : item.ipCIDRMatchSource = true
  · rw [if_pos source]
    exact alike_matchSource rule source rfl
  · rw [if_neg source]
    rw [Bool.not_eq_true] at source
    by_cases accept : item.ipCIDRAcceptEmpty = true
    · rw [if_pos accept]
      exact alike_acceptEmpty rule source rfl accept rfl rfl
    · rw [if_neg accept]
      rw [Bool.not_eq_true] at accept
      have off : item.prepareNestedMatch metadata = metadata.resetRuleCache := by
        simp only [prepareNestedMatch, source, accept]
        rfl
      rw [off]
      exact ⟨rfl, rfl, rfl, rfl, rfl, rfl⟩

/-! ## Sets, items and rules -/

/-- The fields of a rule besides addresses: its plain items and its ports. -/
def othersHold (rule : DefaultHeadlessRule) (metadata : InboundContext) : Bool :=
  rule.matchItems metadata &&
    (!(rule.required metadata).sourcePort || (rule.satisfied metadata).sourcePort) &&
    (!(rule.required metadata).destinationPort || (rule.satisfied metadata).destinationPort)

/-- A default rule that the evaluation of the set comes to inside a logical rule has no
destination IP item, unless its other fields miss anyway. -/
def NoNestedIP (nested : InboundContext) (ruleSet : RuleSet) : Prop :=
  ∀ mode rules invert, RuleTree.logical mode rules invert ∈ ruleSet.visitedRules nested →
    ∀ sign leaf, (sign, leaf) ∈ (RuleTree.logical mode rules invert).visited
        DefaultHeadlessRule.verdict nested true →
      othersHold leaf nested = true → leaf.destinationIPCIDRItems = []

/-- The flags of an item reach what is evaluated of its sets. A set that is not merged
is evaluated when the groups of the rule are satisfied. -/
def FlagsReach (item : RuleSetItem) (required satisfied : GroupFlags) (metadata : InboundContext) :
    Prop :=
  (item.ipCIDRMatchSource || item.ipCIDRAcceptEmpty) = true →
    required.coveredBy satisfied = true →
      ∀ ruleSet ∈ visitedSets required satisfied (item.prepareNestedMatch metadata) item.setList,
        NoNestedIP (item.prepareNestedMatch metadata) ruleSet

/-- `FlagsReach` for the item of a rule; it is asked when the plain items match. -/
def RuleReach (metadata : InboundContext) (rule : DefaultRule) : Prop :=
  rule.matchItems metadata = true → ∀ item ∈ rule.ruleSetItem,
    FlagsReach item (rule.required metadata) (rule.satisfied metadata) metadata

/-- `RuleReach` for every default rule that the evaluation of a rule comes to. -/
def Reaches (metadata : InboundContext) : RouteRule → Prop
  | .default rule => RuleReach metadata rule
  | .logical mode rules invert =>
    ∀ sign leaf, (sign, leaf) ∈ (RuleTree.logical mode rules invert).visited
        DefaultRule.verdict metadata true → RuleReach metadata.resetRuleCache leaf

theorem spellOutDefault_of_no_ip {rule : DefaultHeadlessRule}
    (none : rule.destinationIPCIDRItems = []) : spellOutDefault item rule = rule := by
  unfold spellOutDefault
  split
  · cases rule
    simp_all
  · split
    · cases rule
      simp_all
    · rfl

theorem othersHold_spellOut (rule : DefaultHeadlessRule) (metadata : InboundContext) :
    othersHold (spellOutDefault item rule) metadata = othersHold rule metadata := by
  unfold spellOutDefault
  split
  · rfl
  · split <;> rfl

/-- Where the other fields miss, the addresses do not matter. -/
theorem innerVerdict_of_others {rule : DefaultHeadlessRule}
    (miss : othersHold rule metadata = false) : rule.innerVerdict metadata none = .no := by
  unfold innerVerdict
  by_cases items : rule.matchItems metadata = true
  · have uncovered : (rule.required metadata).coveredBy (rule.satisfied metadata) = false := by
      rw [othersHold, items, Bool.true_and] at miss
      revert miss
      unfold GroupFlags.coveredBy
      generalize (!(rule.required metadata).sourcePort || (rule.satisfied metadata).sourcePort) = a
      generalize (!(rule.required metadata).destinationPort ||
        (rule.satisfied metadata).destinationPort) = b
      cases a <;> cases b <;> simp
    simp [uncovered]
  · rw [if_neg items]

/-- A default rule whose verdict does not depend on the flags. -/
theorem verdict_of_unread (metadata : InboundContext) (rule : DefaultHeadlessRule)
    (unread : othersHold rule metadata = true → rule.destinationIPCIDRItems = []) :
    DefaultHeadlessRule.verdict metadata rule =
      DefaultHeadlessRule.verdict metadata (spellOutDefault item rule) := by
  by_cases others : othersHold rule metadata = true
  · rw [spellOutDefault_of_no_ip item (unread others)]
  · rw [Bool.not_eq_true] at others
    have alike := spellOutDefault_alike item metadata rule
    unfold DefaultHeadlessRule.verdict verdict
    rw [noSets rule, noSets (spellOutDefault item rule), alike.hasNoItems, alike.invert,
      Option.map_none, Option.map_none, innerVerdict_of_others others,
      innerVerdict_of_others ((othersHold_spellOut item rule metadata).trans others)]

theorem verdict_spellOut (metadata : InboundContext) {ruleSet : RuleSet}
    (reach : (item.ipCIDRMatchSource || item.ipCIDRAcceptEmpty) = true →
      NoNestedIP (item.prepareNestedMatch metadata) ruleSet)
    {rule : HeadlessRule} (reached : rule ∈ ruleSet.visitedRules (item.prepareNestedMatch metadata)) :
    HeadlessRule.verdict (item.prepareNestedMatch metadata) rule =
      HeadlessRule.verdict metadata.resetRuleCache (rule.map (spellOutDefault item)) := by
  cases rule with
  | default rule => exact (spellOutDefault_alike item metadata rule).verdict_eq
  | logical mode rules invert =>
    -- the logical rule resets the cache, the flags with it
    have reset : HeadlessRule.verdict (item.prepareNestedMatch metadata)
        (.logical mode rules invert) =
          HeadlessRule.verdict metadata.resetRuleCache (.logical mode rules invert) := by
      rw [HeadlessRule.verdict, RuleTree.verdict_logical, RuleTree.verdict_logical]
      rfl
    rw [reset]
    refine RuleTree.verdict_map ⟨rfl, rfl, rfl⟩ _ true fun sign leaf below => ?_
    by_cases flagged : (item.ipCIDRMatchSource || item.ipCIDRAcceptEmpty) = true
    · exact verdict_of_unread item metadata.resetRuleCache leaf
        (reach flagged mode rules invert reached sign leaf below)
    · simp only [Bool.or_eq_true, not_or, Bool.not_eq_true] at flagged
      simp [spellOutDefault, flagged]

theorem mergeableRuleIn_map (f : DefaultHeadlessRule → DefaultHeadlessRule)
    (kept : ∀ rule, (f rule).invert = rule.invert) (rules : List HeadlessRule) :
    mergeableRuleIn (rules.map (RuleTree.map f)) = (mergeableRuleIn rules).map f := by
  match rules with
  | [] => rfl
  | [.default rule] =>
    simp only [List.map_cons, List.map_nil, RuleTree.map, mergeableRuleIn, kept]
    cases rule.invert <;> rfl
  | [.logical mode rules invert] => rfl
  | first :: second :: rest => cases first <;> rfl

theorem setOutcome_spellOut (required satisfied : GroupFlags) (metadata : InboundContext)
    (ruleSet : RuleSet)
    (reach : (item.ipCIDRMatchSource || item.ipCIDRAcceptEmpty) = true →
      required.coveredBy satisfied = true → NoNestedIP (item.prepareNestedMatch metadata) ruleSet) :
    setOutcome required satisfied (item.prepareNestedMatch metadata) ruleSet =
      setOutcome required satisfied metadata.resetRuleCache
        (spellOutSet item ruleSet) := by
  have kept (rule : DefaultHeadlessRule) : (spellOutDefault item rule).invert = rule.invert :=
    (spellOutDefault_alike item metadata rule).invert.symm
  have merged := mergeableRuleIn_map (spellOutDefault item) kept ruleSet.rules
  have rules : (spellOutSet item ruleSet).rules =
      ruleSet.rules.map (RuleTree.map (spellOutDefault item)) := rfl
  unfold setOutcome
  rw [rules, merged]
  cases mergeableRuleIn ruleSet.rules with
  | some branch =>
    obtain ⟨items, sameRequired, sameSatisfied, defers, -, -⟩ :=
      spellOutDefault_alike item metadata branch
    simp [items, sameRequired, sameSatisfied, defers]
  | none =>
    by_cases covered : required.coveredBy satisfied = true
    · have answer : ruleSet.verdict (item.prepareNestedMatch metadata) =
          (spellOutSet item ruleSet).verdict metadata.resetRuleCache := by
        rw [RuleSet.verdict, RuleSet.verdict, rules, Verdict.any_map]
        exact Verdict.any_congr fun rule reached =>
          verdict_spellOut item metadata (fun flagged => reach flagged covered) reached
      simp [answer]
    · simp [covered]

theorem outcome_spellOut {item : RuleSetItem} {required satisfied : GroupFlags}
    {metadata : InboundContext} (reach : FlagsReach item required satisfied metadata) :
    item.outcome required satisfied metadata =
      (spellOutItem item).outcome required satisfied metadata := by
  have nested : (spellOutItem item).prepareNestedMatch metadata = metadata.resetRuleCache := rfl
  rw [outcome, outcome, nested, spellOutItem]
  unfold FlagsReach at reach
  generalize item.setList = sets at reach
  induction sets with
  | nil => rfl
  | cons ruleSet rest ih =>
    have first := setOutcome_spellOut item required satisfied metadata ruleSet
      fun flagged covered => (forall_upTo_cons.mp (reach flagged covered)).1
    rw [List.map_cons, setsOutcome, setsOutcome, ← first]
    have later : (setOutcome required satisfied (item.prepareNestedMatch metadata)
        ruleSet).isSettled = false → _ :=
      fun goesOn => ih fun flagged covered => (forall_upTo_cons.mp (reach flagged covered)).2 goesOn
    cases outcome : setOutcome required satisfied (item.prepareNestedMatch metadata) ruleSet with
    | settled cleared => rfl
    | missed => rw [later (by rw [outcome]; rfl)]
    | deferred => rw [later (by rw [outcome]; rfl)]

/-- The outcome is all that `matchWithOuterGroups` passes on. -/
theorem matchWithOuterGroups_spellOut {item : RuleSetItem} {required satisfied : GroupFlags}
    {metadata : InboundContext} (reach : FlagsReach item required satisfied metadata)
    (deferred : BitVec 8) :
    item.matchWithOuterGroups ⟨required.bits, satisfied.bits⟩ (metadata.withDeferred deferred) =
      (spellOutItem item).matchWithOuterGroups ⟨required.bits, satisfied.bits⟩
        (metadata.withDeferred deferred) := by
  rw [answers.result, answers.result, outcome_spellOut reach]

theorem spellOutRule_of_noSets {rule : DefaultRule} (none : rule.ruleSetItem = none) :
    spellOutRule rule = rule := by
  cases rule
  simp_all [spellOutRule]

theorem hasNoItems_spellOutRule (rule : DefaultRule) :
    (spellOutRule rule).hasNoItems = rule.hasNoItems := by
  simp [hasNoItems, spellOutRule]

theorem matchOn_spellOutRule {rule : DefaultRule} (reach : RuleReach metadata rule) :
    DefaultRule.matchOn rule metadata = DefaultRule.matchOn (spellOutRule rule) metadata := by
  have inner : rule.matchInner matchWithOuterGroups metadata =
      (spellOutRule rule).matchInner matchWithOuterGroups metadata := by
    cases hasSets : rule.ruleSetItem with
    | none => rw [spellOutRule_of_noSets hasSets]
    | some item =>
      have groups : (spellOutRule rule).evaluateGroups metadata = rule.evaluateGroups metadata := rfl
      have items : (spellOutRule rule).matchItems = rule.matchItems := rfl
      have sets : (spellOutRule rule).ruleSetItem = some (spellOutItem item) := by
        simp [spellOutRule, hasSets]
      obtain ⟨deferred, evaluated⟩ : ∃ deferred, rule.evaluateGroups metadata =
          (⟨(rule.required metadata).bits, (rule.satisfied metadata).bits⟩,
            metadata.withDeferred deferred) := by
        rw [evaluateGroups_eq]
        cases rule.defersDestination metadata with
        | true => exact ⟨_, rfl⟩
        | false => exact ⟨metadata.deferredIPCIDRMatchGroups, rfl⟩
      unfold matchInner
      rw [groups, items, sets, hasSets, evaluated]
      simp only [matchItems_withDeferred]
      by_cases matched : rule.matchItems metadata = true
      · rw [if_pos matched, if_pos matched,
          matchWithOuterGroups_spellOut (reach matched item hasSets) deferred]
      · rw [if_neg matched, if_neg matched]
  unfold DefaultRule.matchOn matchOn
  rw [inner, hasNoItems_spellOutRule]
  rfl

theorem verdict_spellOutRule {rule : DefaultRule} (reach : RuleReach metadata rule) :
    DefaultRule.verdict metadata rule = DefaultRule.verdict metadata (spellOutRule rule) := by
  cases hasSets : rule.ruleSetItem with
  | none => rw [spellOutRule_of_noSets hasSets]
  | some item =>
    have sets : (spellOutRule rule).ruleSetItem = some (spellOutItem item) := by
      simp [spellOutRule, hasSets]
    unfold DefaultRule.verdict verdict innerVerdict
    rw [hasNoItems_spellOutRule, sets, hasSets, Option.map_some, Option.map_some]
    by_cases matched : rule.matchItems metadata = true
    · rw [outcome_spellOut (reach matched item hasSets)]
      rfl
    · have spelled : ¬(spellOutRule rule).matchItems metadata = true := matched
      rw [if_neg matched, if_neg spelled]
      rfl

/-- The answer of a logical rule reads nothing of the cache it finds. -/
theorem matchOn_logical_fst (mode : LogicalType) (rules : List RouteRule) (invert : Bool)
    (metadata : InboundContext) :
    (RouteRule.matchOn (.logical mode rules invert) metadata).1 =
      decide (RouteRule.verdict metadata.resetRuleCache (.logical mode rules invert) ≠ .no) := by
  have settles := (RouteRule.matchOn_settles (.logical mode rules invert)
    metadata.resetRuleCache rfl).fst
  have conclude (snapshot other : RuleMatchSnapshot) (loop : Bool × BitVec 8 × InboundContext) :
      (concludeRules snapshot invert loop).1 = (concludeRules other invert loop).1 := by
    cases invert <;> rfl
  rw [← settles]
  unfold RouteRule.matchOn RuleTree.matchOn logicalMatch
  rw [conclude (snapshotRuleMatch metadata) (snapshotRuleMatch metadata.resetRuleCache)]
  cases mode <;> cases rules <;> rfl

/-- Where the flags reach every destination IP item that is evaluated, `Match` answers
as it does on the rule that spells the flags out. -/
theorem matchOn_eq_spellOut (rule : RouteRule) (metadata : InboundContext)
    (reach : Reaches metadata rule) :
    (rule.matchOn metadata).1 = ((spellOut rule).matchOn metadata).1 := by
  cases rule with
  | default rule => exact congrArg Prod.fst (matchOn_spellOutRule reach)
  | logical mode rules invert =>
    have same := RuleTree.verdict_map ⟨rfl, rfl, rfl⟩ (RuleTree.logical mode rules invert) true
      fun sign leaf below => verdict_spellOutRule (reach sign leaf below)
    rw [matchOn_logical_fst, RouteRule.verdict, same]
    exact (matchOn_logical_fst mode (RuleTree.mapList spellOutRule rules) invert metadata).symm

/-! ## Logical rules of a set lose the flags -/

/-- A connection from 10.0.0.1 to a name that has no addresses yet. -/
def fromTenNet : InboundContext where
  source := ⟨.ipv4 0x0a000001, 40000, ""⟩
  destination := ⟨.invalid, 443, "example.org"⟩

def tenNet : Addr → Bool := fun addr => addr == .ipv4 0x0a000001

/-- A set of one logical rule over one `ip_cidr` rule. -/
def logicalSet : RuleSet where
  rules := [.logical .or [.default { destinationIPCIDRItems := [.ipCIDR tenNet] }] false]
  metadata := { containsIPCIDRRule := true }

def ruleWithFlags (matchSource acceptEmpty : Bool) : RouteRule :=
  .default { ruleSetItem := some ⟨[logicalSet], matchSource, acceptEmpty⟩ }

/-- Each flag alone: the spelled out rule matches, the rule itself does not. -/
theorem logical_set_ignores_flags :
    ((ruleWithFlags true false).matchOn fromTenNet).1 = false ∧
      ((spellOut (ruleWithFlags true false)).matchOn fromTenNet).1 = true ∧
    ((ruleWithFlags false true).matchOn fromTenNet).1 = false ∧
      ((spellOut (ruleWithFlags false true)).matchOn fromTenNet).1 = true := by
  decide

/-- A default rule on the addresses before the logical one. -/
def guardedSet : RuleSet where
  rules := .default { destinationIPCIDRItems := [.ipCIDR tenNet] } :: logicalSet.rules
  metadata := { containsIPCIDRRule := true }

def guardedRule : RouteRule := .default { ruleSetItem := some ⟨[guardedSet], true, false⟩ }

/-- The default rule reads the source address and ends the loop: the logical rule, which
would not read it, is not come to. -/
theorem matchOn_eq_spellOut_guarded :
    (guardedRule.matchOn fromTenNet).1 = true ∧
      (guardedRule.matchOn fromTenNet).1 = ((spellOut guardedRule).matchOn fromTenNet).1 := by
  refine ⟨by decide, matchOn_eq_spellOut guardedRule fromTenNet ?_⟩
  intro _ item hasItem _ _ ruleSet reachedSet mode rules invert reached
  cases hasItem
  cases List.mem_singleton.mp (mem_of_mem_upTo reachedSet)
  -- the loop over the rules of the set ends at the first
  have only : guardedSet.visitedRules
      ((⟨[guardedSet], true, false⟩ : RuleSetItem).prepareNestedMatch fromTenNet) =
        [.default { destinationIPCIDRItems := [.ipCIDR tenNet] }] := rfl
  rw [only] at reached
  cases List.mem_singleton.mp reached

end AmneziaBox.Guarantees.RuleSetFlags
