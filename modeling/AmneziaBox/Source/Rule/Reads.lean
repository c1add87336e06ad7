import AmneziaBox.Source.Rule.DNSRule

/-!
# What a DNS rule reads of the responses

A default rule with `match_response` reads the one response it is bound to, any other
default rule reads none. The options of the repository are checked for this when the
router starts: a response item needs `match_response`, and no item reads the named
responses. Metadata that agree on what the rule reads get the same answer from `Match`.
-/
namespace AmneziaBox.Source.Rule
open Adapter Library RuleSetItem

/-- Two inputs that an item must not tell apart: the query is the same and, where the rule
is bound to a response, so is the response. -/
structure SameInput (bound : Bool) (input other : MatchInput) : Prop where
  query : input.toQuery = other.toQuery
  fromResponse : input.destinationAddressMatchFromResponse = bound
  fromResponse' : other.destinationAddressMatchFromResponse = bound
  response : bound = true → input.dnsResponse = other.dnsResponse

def RuleItem.Reads (bound : Bool) (item : RuleItem) : Prop :=
  ∀ input other, SameInput bound input other → item input = item other

/-- `ip_cidr` reads addresses of the query, or those of the response. -/
def DestinationIPItem.Reads (bound : Bool) : DestinationIPItem → Prop
  | .ipCIDR _ => True
  | .predicate holds => RuleItem.Reads bound holds

/-- The items of a default rule read the query and, when it is bound, the response. -/
structure AbstractDefaultRule.Reads {σ : Type} (bound : Bool) (rule : AbstractDefaultRule σ) :
    Prop where
  items : ∀ item ∈ rule.items, item.Reads bound
  sourceAddress : ∀ item ∈ rule.sourceAddressItems, item.Reads bound
  sourcePort : ∀ item ∈ rule.sourcePortItems, item.Reads bound
  destinationAddress : ∀ item ∈ rule.destinationAddressItems, item.Reads bound
  destinationIPCIDR : ∀ item ∈ rule.destinationIPCIDRItems, item.Reads bound
  destinationPort : ∀ item ∈ rule.destinationPortItems, item.Reads bound

/-- The rule and the sets it refers to. -/
structure DefaultDNSRule.Reads (leaf : DefaultDNSRule) : Prop where
  own : leaf.toAbstractDefaultRule.Reads leaf.matchResponse
  sets : ∀ item ∈ leaf.ruleSetItem, ∀ ruleSet ∈ item.setList,
    ∀ headless ∈ RuleTree.leavesOf ruleSet.rules, headless.Reads leaf.matchResponse

/-- Metadata with the same input and the same flags for the evaluator. -/
structure SameMetadata (bound : Bool) (metadata other : InboundContext) : Prop
    extends SameInput bound metadata.toMatchInput other.toMatchInput where
  matchSource : metadata.ipCIDRMatchSource = other.ipCIDRMatchSource
  acceptEmpty : metadata.ipCIDRAcceptEmpty = other.ipCIDRAcceptEmpty
  ignored : metadata.ignoreDestinationIPCIDRMatch = other.ignoreDestinationIPCIDRMatch

section Congruence
variable {bound : Bool} {metadata other : InboundContext}

theorem SameMetadata.resetRuleCache (same : SameMetadata bound metadata other) :
    SameMetadata bound metadata.resetRuleCache other.resetRuleCache :=
  ⟨⟨same.query, same.fromResponse, same.fromResponse', same.response⟩, rfl, rfl, same.ignored⟩

theorem SameMetadata.prepareNestedMatch (same : SameMetadata bound metadata other)
    (item : RuleSetItem) :
    SameMetadata bound (item.prepareNestedMatch metadata) (item.prepareNestedMatch other) :=
  ⟨⟨same.query, same.fromResponse, same.fromResponse', same.response⟩, rfl, rfl, same.ignored⟩

theorem matchAnyItem_congr {items : List RuleItem} (reads : ∀ item ∈ items, item.Reads bound)
    (same : SameMetadata bound metadata other) :
    matchAnyItem items metadata = matchAnyItem items other :=
  any_congr_mem fun item member => reads item member _ _ same.toSameInput

theorem ipCIDRMatch_congr (ipSet : Addr → Bool) (isSource : Bool)
    (same : SameMetadata bound metadata other) :
    ipCIDRMatch ipSet isSource metadata = ipCIDRMatch ipSet isSource other := by
  have addresses (isBound : bound = true) :
      metadata.dnsResponseAddressesForMatch = other.dnsResponseAddressesForMatch :=
    congrArg dnsResponseAddresses (same.response isBound)
  unfold ipCIDRMatch
  rw [same.query, same.matchSource, same.acceptEmpty, same.fromResponse, same.fromResponse']
  cases bound with
  | true => rw [addresses rfl]
  | false => rfl

theorem matchAnyIPItem_congr {items : List DestinationIPItem}
    (reads : ∀ item ∈ items, item.Reads bound) (same : SameMetadata bound metadata other) :
    matchAnyIPItem items metadata = matchAnyIPItem items other := by
  apply any_congr_mem
  intro item member
  cases item with
  | ipCIDR ipSet => exact ipCIDRMatch_congr ipSet false same
  | predicate holds => exact reads _ member _ _ same.toSameInput

namespace AbstractDefaultRule
variable {σ : Type} {rule : AbstractDefaultRule σ}

theorem required_congr (same : SameMetadata bound metadata other) :
    rule.required metadata = rule.required other := by
  simp [required, destinationIPCIDRMatchesSource, destinationIPCIDRMatchesDestination,
    same.matchSource, same.ignored]

theorem defersDestination_congr (same : SameMetadata bound metadata other) :
    rule.defersDestination metadata = rule.defersDestination other := by
  simp [defersDestination, same.matchSource, same.ignored]

section
variable (reads : rule.Reads bound) (same : SameMetadata bound metadata other)
include reads same

theorem Reads.matchItems_eq :
    rule.matchItems metadata = rule.matchItems other :=
  all_congr_mem fun item member => reads.items item member _ _ same.toSameInput

theorem Reads.satisfied_eq :
    rule.satisfied metadata = rule.satisfied other := by
  simp [satisfied, destinationIPCIDRMatchesSource, destinationIPCIDRMatchesDestination,
    same.matchSource, same.ignored, matchAnyItem_congr reads.sourceAddress same,
    matchAnyItem_congr reads.sourcePort same, matchAnyItem_congr reads.destinationAddress same,
    matchAnyItem_congr reads.destinationPort same,
    matchAnyIPItem_congr reads.destinationIPCIDR same]

theorem Reads.verdict_eq {outcome : σ → GroupFlags → GroupFlags → InboundContext → SetOutcome}
    (sets : ∀ item ∈ rule.ruleSetItem, ∀ required satisfied,
      outcome item required satisfied metadata = outcome item required satisfied other) :
    rule.verdict outcome metadata = rule.verdict outcome other := by
  have answers : (rule.ruleSetItem.map fun item =>
      outcome item (rule.required metadata) (rule.satisfied metadata) metadata) =
      rule.ruleSetItem.map fun item =>
        outcome item (rule.required other) (rule.satisfied other) other := by
    cases hasSets : rule.ruleSetItem with
    | none => rfl
    | some item =>
      rw [Option.map_some, Option.map_some, sets item hasSets, required_congr same,
        reads.satisfied_eq same]
  unfold verdict innerVerdict
  rw [answers, reads.matchItems_eq same, required_congr same, reads.satisfied_eq same,
    defersDestination_congr same]

end

end AbstractDefaultRule

/-- Trees whose default rules answer alike on the metadata and on the reset cache. -/
theorem RuleTree.verdict_congr {δ : Type} {verdictDefault : InboundContext → δ → Verdict}
    (rule : RuleTree δ) {metadata other : InboundContext}
    (here : ∀ leaf ∈ rule.leaves, verdictDefault metadata leaf = verdictDefault other leaf)
    (reset : ∀ leaf ∈ rule.leaves, verdictDefault metadata.resetRuleCache leaf =
      verdictDefault other.resetRuleCache leaf) :
    rule.verdict verdictDefault metadata = rule.verdict verdictDefault other := by
  induction rule using ind generalizing metadata other with
  | default rule => exact here rule (by simp [leaves])
  | logical mode rules invert ih =>
    have each : ∀ rule ∈ rules, rule.verdict verdictDefault metadata.resetRuleCache =
        rule.verdict verdictDefault other.resetRuleCache := fun rule member =>
      ih rule member (fun leaf below => reset leaf (mem_leaves_logical member below))
        fun leaf below => reset leaf (mem_leaves_logical member below)
    rw [verdict_logical, verdict_logical]
    congr 1
    cases mode with
    | and => exact Verdict.all_congr fun rule reached => each rule (mem_of_mem_upTo reached)
    | or => exact Verdict.any_congr fun rule reached => each rule (mem_of_mem_upTo reached)

theorem headless_verdict_congr {rule : HeadlessRule}
    (reads : ∀ leaf ∈ rule.leaves, leaf.Reads bound) (same : SameMetadata bound metadata other) :
    HeadlessRule.verdict metadata rule = HeadlessRule.verdict other rule :=
  rule.verdict_congr
    (fun leaf below => (reads leaf below).verdict_eq same fun item => item.elim)
    fun leaf below => (reads leaf below).verdict_eq same.resetRuleCache fun item => item.elim

theorem outcome_congr {item : RuleSetItem}
    (reads : ∀ ruleSet ∈ item.setList, ∀ leaf ∈ RuleTree.leavesOf ruleSet.rules, leaf.Reads bound)
    (same : SameMetadata bound metadata other) (required satisfied : GroupFlags) :
    item.outcome required satisfied metadata = item.outcome required satisfied other := by
  have nested := same.prepareNestedMatch item
  unfold outcome
  generalize item.prepareNestedMatch metadata = inside at *
  generalize item.prepareNestedMatch other = inside' at *
  generalize item.setList = sets at *
  induction sets with
  | nil => rfl
  | cons ruleSet rest ih =>
    have here := reads ruleSet (by simp)
    rw [setsOutcome, setsOutcome,
      ih fun later member => reads later (by simp [member])]
    congr 1
    unfold setOutcome
    cases merged : mergeableRuleIn ruleSet.rules with
    | some branch =>
      have branchReads := here branch (mem_leavesOf_of_mergeable merged)
      simp only [branchReads.satisfied_eq nested, branchReads.matchItems_eq nested,
        AbstractDefaultRule.required_congr nested, AbstractDefaultRule.defersDestination_congr nested]
    | none =>
      have answer : ruleSet.verdict inside = ruleSet.verdict inside' :=
        Verdict.any_congr fun rule reached =>
          headless_verdict_congr (fun leaf below =>
            here leaf (RuleTree.mem_leavesOf (mem_of_mem_upTo reached) below)) nested
      simp [answer]

end Congruence

namespace DefaultDNSRule
variable {leaf : DefaultDNSRule} {metadata other : InboundContext}

theorem onResponse_same (same : SameMetadata false metadata other) (response : Option Msg) :
    SameMetadata true (onResponse metadata response) (onResponse other response) :=
  ⟨⟨same.query, rfl, rfl, fun _ => rfl⟩, same.matchSource, same.acceptEmpty, same.ignored⟩

/-- A rule answers alike on the same query and, if it is bound, the same response. -/
theorem Reads.verdict_congr (reads : leaf.Reads) (same : SameMetadata false metadata other)
    (response : leaf.matchResponse = true →
      leaf.boundResponse metadata = leaf.boundResponse other) :
    leaf.verdict metadata = leaf.verdict other := by
  have abstractVerdict {metadata other : InboundContext}
      (same : SameMetadata leaf.matchResponse metadata other) :
      leaf.toAbstractDefaultRule.verdict outcome metadata =
        leaf.toAbstractDefaultRule.verdict outcome other :=
    reads.own.verdict_eq same fun item hasItem => outcome_congr (reads.sets item hasItem) same
  unfold verdict
  cases bound : leaf.matchResponse with
  | false =>
    rw [bound] at abstractVerdict
    exact abstractVerdict same
  | true =>
    rw [bound] at abstractVerdict
    rw [response bound]
    cases leaf.boundResponse other with
    | none => rfl
    | some response => simp [abstractVerdict (onResponse_same same (some response))]

end DefaultDNSRule

namespace DNSRuleTree

theorem matchOn_congr {tree : DNSRuleTree} {metadata other : InboundContext}
    (reads : ∀ leaf ∈ tree.leaves, leaf.Reads) (same : SameMetadata false metadata other)
    (response : ∀ leaf ∈ tree.leaves, leaf.matchResponse = true →
      leaf.boundResponse metadata = leaf.boundResponse other)
    (clean : metadata.deferredIPCIDRMatchGroups = 0)
    (clean' : other.deferredIPCIDRMatchGroups = 0) :
    (tree.matchOn metadata).1 = (tree.matchOn other).1 := by
  have verdicts : DNSRuleTree.verdict metadata tree = DNSRuleTree.verdict other tree :=
    tree.verdict_congr
      (fun leaf below => (reads leaf below).verdict_congr same (response leaf below))
      fun leaf below => (reads leaf below).verdict_congr same.resetRuleCache (response leaf below)
  rw [(tree.matchOn_settles metadata clean).fst, (tree.matchOn_settles other clean').fst, verdicts]

end DNSRuleTree
end AmneziaBox.Source.Rule
