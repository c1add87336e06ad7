import AmneziaBox.Source.Rule.Verdicts

/-!
# The documented meaning of a rule

`docs/configuration/route/rule.md` gives the formula a rule stands for:
(`domain` || ... || `ip_cidr` || `ip_is_private`) && (`port` || ...) &&
(`source_ip_cidr` || ...) && (`source_port` || ...) && `other fields`, where a
rule-set with a single default rule is merged into the rule that refers to it and
any other rule-set is one more field. Here that formula is written as a Boolean
function of the rule and the metadata, and `Match` is shown to compute it and to
hand the metadata back unchanged.
-/
namespace AmneziaBox.Guarantees.RuleSemantics
open Source.Adapter Source.Rule Library AbstractDefaultRule InboundContext RuleSetItem Verdict

/-- The answers of the items in each of the four groups of a rule. -/
structure GroupAnswers where
  sourceAddress : List Bool
  sourcePort : List Bool
  destinationAddress : List Bool
  destinationPort : List Bool

/-- A group without items asks nothing; any other needs one item that matches. -/
def groupHolds (answers : List Bool) : Bool := answers.isEmpty || answers.any id

namespace GroupAnswers

def hold (groups : GroupAnswers) : Bool :=
  groupHolds groups.sourceAddress && groupHolds groups.sourcePort &&
    groupHolds groups.destinationAddress && groupHolds groups.destinationPort

/-- The groups of two rules merged into one. -/
def merge (groups other : GroupAnswers) : GroupAnswers where
  sourceAddress := groups.sourceAddress ++ other.sourceAddress
  sourcePort := groups.sourcePort ++ other.sourcePort
  destinationAddress := groups.destinationAddress ++ other.destinationAddress
  destinationPort := groups.destinationPort ++ other.destinationPort

def asked (groups : GroupAnswers) : GroupFlags where
  sourceAddress := !groups.sourceAddress.isEmpty
  sourcePort := !groups.sourcePort.isEmpty
  destinationAddress := !groups.destinationAddress.isEmpty
  destinationPort := !groups.destinationPort.isEmpty

def met (groups : GroupAnswers) : GroupFlags where
  sourceAddress := groups.sourceAddress.any id
  sourcePort := groups.sourcePort.any id
  destinationAddress := groups.destinationAddress.any id
  destinationPort := groups.destinationPort.any id

theorem hold_eq_covered (groups : GroupAnswers) :
    groups.hold = groups.asked.coveredBy groups.met := by
  simp [hold, groupHolds, GroupFlags.coveredBy, asked, met]

theorem isEmpty_append (answers more : List Bool) :
    (answers ++ more).isEmpty = (answers.isEmpty && more.isEmpty) := by
  cases answers <;> rfl

theorem asked_merge (groups other : GroupAnswers) :
    (groups.merge other).asked = groups.asked.union other.asked := by
  simp [asked, merge, GroupFlags.union, isEmpty_append]

theorem met_merge (groups other : GroupAnswers) :
    (groups.merge other).met = groups.met.union other.met := by
  simp [met, merge, GroupFlags.union]

end GroupAnswers

/-- Domain items and destination IP items answer for one group. -/
def groupAnswers {σ : Type} (rule : AbstractDefaultRule σ) (metadata : InboundContext) :
    GroupAnswers where
  sourceAddress := rule.sourceAddressItems.map fun item => item metadata.toMatchInput
  sourcePort := rule.sourcePortItems.map fun item => item metadata.toMatchInput
  destinationAddress :=
    (rule.destinationAddressItems.map fun item => item metadata.toMatchInput) ++
      rule.destinationIPCIDRItems.map fun item => item.matchOn metadata
  destinationPort := rule.destinationPortItems.map fun item => item metadata.toMatchInput

/-- The formula of a default rule before inversion; `sets` is the one of its
`rule_set` field. -/
def documentedInner {σ : Type} (sets : σ → GroupAnswers → Bool) (metadata : InboundContext)
    (rule : AbstractDefaultRule σ) : Bool :=
  rule.matchItems metadata &&
    match rule.ruleSetItem with
    | none => (groupAnswers rule metadata).hold
    | some item => sets item (groupAnswers rule metadata)

/-- The formula of a default rule. -/
def documentedDefault {σ : Type} (sets : σ → GroupAnswers → Bool) (metadata : InboundContext)
    (rule : AbstractDefaultRule σ) : Bool :=
  if rule.hasNoItems then true else documentedInner sets metadata rule ^^ rule.invert

mutual
/-- The formula of a rule tree. -/
def documentedTree {δ : Type} (documentedLeaf : δ → Bool) : RuleTree δ → Bool
  | .default rule => documentedLeaf rule
  | .logical .and rules invert => (documentedTrees documentedLeaf rules).all id ^^ invert
  | .logical .or rules invert => (documentedTrees documentedLeaf rules).any id ^^ invert

def documentedTrees {δ : Type} (documentedLeaf : δ → Bool) : List (RuleTree δ) → List Bool
  | [] => []
  | rule :: rest => documentedTree documentedLeaf rule :: documentedTrees documentedLeaf rest
end

def documentedHeadless (metadata : InboundContext) : HeadlessRule → Bool :=
  documentedTree (documentedDefault (fun item _ => item.elim) metadata)

/-- One referenced rule-set, for a rule whose groups answer `outer`. -/
def documentedSet (metadata : InboundContext) (outer : GroupAnswers) (ruleSet : RuleSet) : Bool :=
  match mergeableRuleIn ruleSet.rules with
  | some branch =>
    branch.matchItems metadata && (outer.merge (groupAnswers branch metadata)).hold
  | none => outer.hold && ruleSet.rules.any (documentedHeadless metadata)

/-- Different rule-sets keep OR semantics. -/
def documentedSets (metadata : InboundContext) (item : RuleSetItem) (outer : GroupAnswers) : Bool :=
  item.setList.any (documentedSet metadata outer)

def documented (metadata : InboundContext) : RouteRule → Bool :=
  documentedTree (documentedDefault (documentedSets metadata) metadata)

theorem documentedTrees_eq_map {δ : Type} (documentedLeaf : δ → Bool) (rules : List (RuleTree δ)) :
    documentedTrees documentedLeaf rules = rules.map (documentedTree documentedLeaf) := by
  induction rules with
  | nil => rfl
  | cons rule rest ih => rw [documentedTrees, ih, List.map_cons]

/-! ## `Match` computes the formula -/

/-- The metadata on which the formula is evaluated: a freshly reset rule cache, and
destination IP items are not ignored. -/
structure Ready (metadata : InboundContext) : Prop where
  fresh : metadata.Fresh
  unignored : metadata.ignoreDestinationIPCIDRMatch = false

/-- A rule evaluated on `metadata` sees what its formula sees on `seen`, and waits for
nothing. -/
structure Agrees {σ : Type} (metadata seen : InboundContext) (rule : AbstractDefaultRule σ) :
    Prop where
  items : rule.matchItems metadata = rule.matchItems seen
  required : rule.required metadata = (groupAnswers rule seen).asked
  satisfied : rule.satisfied metadata = (groupAnswers rule seen).met
  settled : rule.defersDestination metadata = false

variable {metadata : InboundContext}

theorem Ready.agrees {σ : Type} (ready : Ready metadata) (rule : AbstractDefaultRule σ) :
    Agrees metadata metadata rule where
  items := rfl
  required := by
    simp [required, GroupAnswers.asked, groupAnswers, GroupAnswers.isEmpty_append,
      destinationIPCIDRMatchesSource, destinationIPCIDRMatchesDestination, ready.fresh.matchSource,
      ready.unignored]
  satisfied := by
    simp only [satisfied, GroupAnswers.met, groupAnswers, destinationIPCIDRMatchesSource,
      destinationIPCIDRMatchesDestination, ready.fresh.matchSource,
      ready.unignored, Bool.not_false, Bool.true_and, Bool.false_and, nonempty_and_matchAnyIPItem]
    simp [matchAnyItem, matchAnyIPItem]
  settled := rule.defers_of_unignored ready.unignored

/-- A rule-set item that answers without waiting, as the Boolean has it. -/
def Decides (outcome : SetOutcome) (value : Bool) : Prop :=
  match outcome with
  | .missed => value = false
  | .deferred => False
  | .settled _ => value = true

theorem decides_or {first second : SetOutcome} {a b : Bool} (hFirst : Decides first a)
    (hSecond : Decides second b) : Decides (first.or second) (a || b) := by
  cases first <;> cases second <;> simp_all [Decides, SetOutcome.or]

section Agreement
variable {seen : InboundContext}

theorem verdict_eq_documentedDefault {σ : Type}
    {outcome : σ → GroupFlags → GroupFlags → InboundContext → SetOutcome}
    {sets : σ → GroupAnswers → Bool} {rule : AbstractDefaultRule σ}
    (agrees : Agrees metadata seen rule)
    (decides : ∀ item ∈ rule.ruleSetItem, ∀ groups : GroupAnswers,
      Decides (outcome item groups.asked groups.met metadata) (sets item groups)) :
    rule.verdict outcome metadata = .ofBool (documentedDefault sets seen rule) := by
  unfold verdict documentedDefault
  cases rule.hasNoItems with
  | true => rfl
  | false =>
    rw [if_neg (by simp), if_neg (by simp), ← negateIf_ofBool]
    congr 1
    unfold innerVerdict documentedInner
    rw [agrees.items, agrees.required, agrees.satisfied, agrees.settled]
    cases rule.matchItems seen with
    | false => rfl
    | true =>
      rw [if_pos rfl, Bool.true_and]
      cases hasSets : rule.ruleSetItem with
      | none =>
        simp only [Option.map_none, ← GroupAnswers.hold_eq_covered]
        cases (groupAnswers rule seen).hold <;> rfl
      | some item =>
        have answer := decides item hasSets (groupAnswers rule seen)
        simp only [Option.map_some, Bool.false_and]
        revert answer
        cases outcome item (groupAnswers rule seen).asked (groupAnswers rule seen).met metadata with
        | missed | settled => intro answer; simp_all [Decides, ofBool]
        | deferred => intro answer; cases answer

theorem verdict_eq_documentedTree {δ : Type} {verdictDefault : InboundContext → δ → Verdict}
    {documentedLeaf : δ → Bool} (fresh : metadata.Fresh) (rule : RuleTree δ)
    (leaves : ∀ leaf ∈ rule.leaves, verdictDefault metadata leaf = .ofBool (documentedLeaf leaf)) :
    rule.verdict verdictDefault metadata = .ofBool (documentedTree documentedLeaf rule) := by
  induction rule using RuleTree.ind with
  | default rule => exact leaves rule (by simp [RuleTree.leaves])
  | logical mode rules invert ih =>
    have each : ∀ rule ∈ rules, rule.verdict verdictDefault metadata =
        .ofBool (documentedTree documentedLeaf rule) := fun rule member =>
      ih rule member fun leaf below => leaves leaf (RuleTree.mem_leaves_logical member below)
    rw [RuleTree.verdict_logical, resetRuleCache_of_fresh fresh]
    cases mode with
    | and =>
      rw [documentedTree, documentedTrees_eq_map, List.all_map, LogicalType.join,
        all_ofBool each, negateIf_ofBool]
      rfl
    | or =>
      rw [documentedTree, documentedTrees_eq_map, List.any_map, LogicalType.join,
        any_ofBool each, negateIf_ofBool]
      rfl

theorem verdict_eq_documentedHeadless (fresh : metadata.Fresh) (rule : HeadlessRule)
    (agrees : ∀ leaf ∈ rule.leaves, Agrees metadata seen leaf) :
    HeadlessRule.verdict metadata rule = .ofBool (documentedHeadless seen rule) :=
  verdict_eq_documentedTree fresh rule fun leaf member =>
    verdict_eq_documentedDefault (agrees leaf member) fun item => item.elim

theorem setOutcome_decides (fresh : metadata.Fresh) (outer : GroupAnswers) (ruleSet : RuleSet)
    (agrees : ∀ leaf ∈ RuleTree.leavesOf ruleSet.rules, Agrees metadata seen leaf) :
    Decides (setOutcome outer.asked outer.met metadata ruleSet)
      (documentedSet seen outer ruleSet) := by
  unfold setOutcome documentedSet
  cases merged : mergeableRuleIn ruleSet.rules with
  | some branch =>
    obtain ⟨items, required, satisfied, settled⟩ :=
      agrees branch (mem_leavesOf_of_mergeable merged)
    simp only [required, satisfied, settled, items, ← GroupAnswers.asked_merge,
      ← GroupAnswers.met_merge, ← GroupAnswers.hold_eq_covered, Bool.false_and]
    cases branch.matchItems seen && (outer.merge (groupAnswers branch seen)).hold <;>
      simp [Decides]
  | none =>
    have answer : ruleSet.verdict metadata =
        .ofBool (ruleSet.rules.any (documentedHeadless seen)) :=
      any_ofBool fun rule member =>
        verdict_eq_documentedHeadless fresh rule fun leaf below =>
          agrees leaf (RuleTree.mem_leavesOf member below)
    simp only [← GroupAnswers.hold_eq_covered, answer]
    cases outer.hold <;> cases ruleSet.rules.any (documentedHeadless seen) <;>
      simp [Decides, SetOutcome.ofVerdict, ofBool]

theorem setsOutcome_decides (fresh : metadata.Fresh) (outer : GroupAnswers) (sets : List RuleSet)
    (agrees : ∀ ruleSet ∈ sets, ∀ leaf ∈ RuleTree.leavesOf ruleSet.rules,
      Agrees metadata seen leaf) :
    Decides (setsOutcome outer.asked outer.met metadata sets)
      (sets.any (documentedSet seen outer)) := by
  induction sets with
  | nil => rfl
  | cons ruleSet rest ih =>
    exact decides_or (setOutcome_decides fresh outer ruleSet (agrees ruleSet (by simp)))
      (ih fun later member => agrees later (by simp [member]))

end Agreement

/-- Neither `rule_set_ip_cidr_match_source` nor `rule_set_ip_cidr_accept_empty`. -/
structure FlagsOff (item : RuleSetItem) : Prop where
  matchSource : item.ipCIDRMatchSource = false
  acceptEmpty : item.ipCIDRAcceptEmpty = false

/-- Inside the sets of an item without flags the metadata are those outside. -/
theorem prepareNestedMatch_of_fresh (fresh : metadata.Fresh) {item : RuleSetItem}
    (off : FlagsOff item) : item.prepareNestedMatch metadata = metadata := by
  have same : item.prepareNestedMatch metadata = metadata.resetRuleCache := by
    simp only [prepareNestedMatch, off.matchSource, off.acceptEmpty]
    rfl
  rw [same, resetRuleCache_of_fresh fresh]

theorem verdict_eq_documented (ready : Ready metadata) (rule : RouteRule)
    (off : ∀ leaf ∈ rule.leaves, ∀ item ∈ leaf.ruleSetItem, FlagsOff item) :
    RouteRule.verdict metadata rule = .ofBool (documented metadata rule) := by
  apply verdict_eq_documentedTree ready.fresh
  intro leaf member
  apply verdict_eq_documentedDefault (ready.agrees leaf)
  intro item hasItem outer
  rw [outcome, prepareNestedMatch_of_fresh ready.fresh (off leaf member item hasItem)]
  exact setsOutcome_decides ready.fresh outer item.setList fun _ _ leaf _ => ready.agrees leaf

/-- A final verdict is the whole result: the metadata come back as they were. -/
theorem settles_ofBool {matcher : Matcher} {value : Bool} (ready : Ready metadata)
    (settles : Settles matcher metadata (.ofBool value)) :
    matcher metadata = (value, metadata) := by
  obtain ⟨waiting, result, -, -, quiet⟩ := settles
  have untouched := withDeferred_of_clean ready.fresh.deferred
  rw [quiet ready.unignored, deferMask_false, untouched] at result
  rw [result]
  cases value <;> rfl

/-- `Match` of every route rule and every headless rule, at any nesting: it returns
the documented value and leaves the metadata, the deferred groups included, as it
found them. -/
theorem match_eq_documented {metadata : InboundContext} (fresh : metadata.Fresh)
    (unignored : metadata.ignoreDestinationIPCIDRMatch = false) :
    (∀ rule : RouteRule, (∀ leaf ∈ rule.leaves, ∀ item ∈ leaf.ruleSetItem, FlagsOff item) →
      rule.matchOn metadata = (documented metadata rule, metadata)) ∧
    (∀ rule : HeadlessRule,
      rule.matchOn metadata = (documentedHeadless metadata rule, metadata)) := by
  have ready : Ready metadata := ⟨fresh, unignored⟩
  constructor
  · intro rule off
    have settles := rule.matchOn_settles metadata fresh.deferred
    rw [verdict_eq_documented ready rule off] at settles
    exact settles_ofBool ready settles
  · intro rule
    have settles := rule.matchOn_settles metadata fresh.deferred
    rw [verdict_eq_documentedHeadless fresh rule fun leaf _ => ready.agrees leaf] at settles
    exact settles_ofBool ready settles

/-- A connection to 10.0.0.1 under the name `other.org`. -/
def connection : InboundContext where
  domain := "other.org"
  destination := ⟨.ipv4 0x0a000001, 443, ""⟩

/-- A rule on `example.org` that refers to a set of one address rule. -/
def mergedRule : RouteRule := .default
  { destinationAddressItems := [fun input => input.domain == "example.org"]
    ruleSetItem := some
      { setList := [{ rules := [.default
          { destinationIPCIDRItems := [.ipCIDR fun addr => addr == .ipv4 0x0a000001] }] }] } }

/-- The name differs, but the address of the merged set answers for the group. -/
theorem match_eq_documented_merged :
    mergedRule.matchOn connection = (true, connection) := by
  have off : ∀ leaf ∈ mergedRule.leaves, ∀ item ∈ leaf.ruleSetItem, FlagsOff item := by
    simp only [mergedRule, RuleTree.leaves, List.mem_singleton, forall_eq, Option.mem_def,
      Option.some.injEq, forall_eq']
    exact ⟨rfl, rfl⟩
  have value : documented connection mergedRule = true := by decide
  rw [(match_eq_documented ⟨rfl, rfl, rfl⟩ rfl).1 mergedRule off, value]

end AmneziaBox.Guarantees.RuleSemantics
