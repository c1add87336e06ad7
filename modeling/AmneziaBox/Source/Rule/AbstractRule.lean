import AmneziaBox.Source.Rule.RuleItem

/-!
# The abstract default rule and the abstract logical rule

`route/rule/rule_abstract.go`. A matcher reads the metadata through a pointer and
writes its rule cache, so it returns the metadata it leaves behind. A default rule
is generic in its rule-set item: a headless rule cannot have one (`Empty`), a
route or DNS rule can. `allItems` holds the items of the six lists and the
rule-set item, and the evaluator asks only whether it is empty.
-/
namespace AmneziaBox.Source.Rule
open Adapter

/-- `Match(metadata)`: the answer and the metadata after the call. -/
abbrev Matcher := InboundContext → Bool × InboundContext

structure AbstractDefaultRule (σ : Type) where
  items : List RuleItem := []
  sourceAddressItems : List RuleItem := []
  sourcePortItems : List RuleItem := []
  destinationAddressItems : List RuleItem := []
  destinationIPCIDRItems : List DestinationIPItem := []
  destinationPortItems : List RuleItem := []
  ruleSetItem : Option σ := none
  invert : Bool := false

namespace AbstractDefaultRule
variable {σ : Type}

/-- `len(r.allItems) == 0`. -/
def hasNoItems (rule : AbstractDefaultRule σ) : Bool :=
  rule.items.isEmpty && rule.sourceAddressItems.isEmpty && rule.sourcePortItems.isEmpty &&
    rule.destinationAddressItems.isEmpty && rule.destinationIPCIDRItems.isEmpty &&
    rule.destinationPortItems.isEmpty && rule.ruleSetItem.isNone

def destinationIPCIDRMatchesSource (rule : AbstractDefaultRule σ) (metadata : InboundContext) :
    Bool :=
  metadata.ipCIDRMatchSource && !rule.destinationIPCIDRItems.isEmpty

def destinationIPCIDRMatchesDestination (rule : AbstractDefaultRule σ)
    (metadata : InboundContext) : Bool :=
  !metadata.ignoreDestinationIPCIDRMatch && !metadata.ipCIDRMatchSource &&
    !rule.destinationIPCIDRItems.isEmpty

/-- The last block of `evaluateGroups`: destination IP items that have to wait for
the response, unless domain items answer for the group. -/
def defersDestination (rule : AbstractDefaultRule σ) (metadata : InboundContext) : Bool :=
  metadata.ignoreDestinationIPCIDRMatch && !metadata.ipCIDRMatchSource &&
    !rule.destinationIPCIDRItems.isEmpty && rule.destinationAddressItems.isEmpty

def evaluateGroups (rule : AbstractDefaultRule σ) (metadata : InboundContext) :
    RuleGroupMatch × InboundContext :=
  let groups : RuleGroupMatch := {}
  let groups := groups.require ruleMatchSourceAddress (!rule.sourceAddressItems.isEmpty)
    (matchAnyItem rule.sourceAddressItems metadata)
  let groups := groups.require ruleMatchSourceAddress (rule.destinationIPCIDRMatchesSource metadata)
    (!groups.satisfied.has ruleMatchSourceAddress &&
      matchAnyIPItem rule.destinationIPCIDRItems metadata)
  let groups := groups.require ruleMatchSourcePort (!rule.sourcePortItems.isEmpty)
    (matchAnyItem rule.sourcePortItems metadata)
  let groups := groups.require ruleMatchDestinationAddress (!rule.destinationAddressItems.isEmpty)
    (matchAnyItem rule.destinationAddressItems metadata)
  let groups := groups.require ruleMatchDestinationAddress
    (rule.destinationIPCIDRMatchesDestination metadata)
    (!groups.satisfied.has ruleMatchDestinationAddress &&
      matchAnyIPItem rule.destinationIPCIDRItems metadata)
  let groups := groups.require ruleMatchDestinationPort (!rule.destinationPortItems.isEmpty)
    (matchAnyItem rule.destinationPortItems metadata)
  (groups,
    if rule.defersDestination metadata then
      metadata.withDeferred (metadata.deferredIPCIDRMatchGroups ||| ruleMatchDestinationAddress)
    else metadata)

/-- The loop over `r.items`: every plain item has to match. -/
def matchItems (rule : AbstractDefaultRule σ) (metadata : InboundContext) : Bool :=
  rule.items.all fun item => item metadata.toMatchInput

def evaluateForMerge (rule : AbstractDefaultRule σ) (metadata : InboundContext) :
    Option RuleGroupMatch × InboundContext :=
  let (groups, metadata) := rule.evaluateGroups metadata
  if rule.matchItems metadata then (some groups, metadata) else (none, metadata)

/-- `matchWithOuterGroups` is the method of the rule's rule-set item. -/
def matchInner (matchWithOuterGroups : σ → RuleGroupMatch → Matcher)
    (rule : AbstractDefaultRule σ) : Matcher := fun metadata =>
  let (groups, metadata) := rule.evaluateGroups metadata
  if rule.matchItems metadata then
    let (matched, metadata) :=
      match rule.ruleSetItem with
      | some item => matchWithOuterGroups item groups metadata
      | none => (groups.done, metadata)
    if matched then
      (true, metadata.withDeferred (metadata.deferredIPCIDRMatchGroups &&& ~~~groups.satisfied))
    else (false, metadata)
  else (false, metadata)

/-- `abstractDefaultRule.Match`. -/
def matchOn (matchWithOuterGroups : σ → RuleGroupMatch → Matcher)
    (rule : AbstractDefaultRule σ) : Matcher := fun metadata =>
  if rule.hasNoItems then (true, metadata)
  else
    let (matched, metadata) := rule.matchInner matchWithOuterGroups metadata
    if rule.invert then
      if matched then (metadata.deferredIPCIDRMatchGroups != 0, metadata)
      else (true, metadata.withDeferred 0)
    else (matched, metadata)

end AbstractDefaultRule

inductive LogicalType where
  | and | or
  deriving DecidableEq, Repr

/-- The `and` loop of `abstractLogicalRule.Match`: matched, `deferredGroups`, metadata. -/
def matchAllRules : List Matcher → BitVec 8 → InboundContext → Bool × BitVec 8 × InboundContext
  | [], deferredGroups, metadata => (true, deferredGroups, metadata)
  | rule :: rest, deferredGroups, metadata =>
    let (matched, metadata) := rule metadata.resetRuleCache
    if matched then
      matchAllRules rest (deferredGroups ||| metadata.deferredIPCIDRMatchGroups) metadata
    else (false, 0, metadata)

/-- The `or` loop of `abstractLogicalRule.Match` and the loop of
`matchAnyHeadlessRule`; they differ in how the cache is reset before each rule.
A rule that matches with nothing deferred ends the loop. -/
def matchAnyRule (reset : InboundContext → InboundContext) :
    List Matcher → Bool → BitVec 8 → InboundContext → Bool × BitVec 8 × InboundContext
  | [], matched, deferredGroups, metadata => (matched, deferredGroups, metadata)
  | rule :: rest, matched, deferredGroups, metadata =>
    let (ruleMatched, metadata) := rule (reset metadata)
    if ruleMatched then
      if metadata.deferredIPCIDRMatchGroups = 0 then (true, 0, metadata)
      else
        matchAnyRule reset rest true (deferredGroups ||| metadata.deferredIPCIDRMatchGroups)
          metadata
    else matchAnyRule reset rest matched deferredGroups metadata

/-- What follows the loops: restore the caller's cache and add what was deferred. -/
def restoreWithDeferred (snapshot : RuleMatchSnapshot) (matched : Bool)
    (deferredGroups : BitVec 8) (metadata : InboundContext) : InboundContext :=
  let metadata := snapshot.restore metadata
  if matched then metadata.withDeferred (metadata.deferredIPCIDRMatchGroups ||| deferredGroups)
  else metadata

/-- The end of `abstractLogicalRule.Match`, after its loop. -/
def concludeRules (snapshot : RuleMatchSnapshot) (invert : Bool) :
    Bool × BitVec 8 × InboundContext → Bool × InboundContext
  | (matched, deferredGroups, metadata) =>
    let metadata := restoreWithDeferred snapshot matched deferredGroups metadata
    if invert then (if matched then deferredGroups != 0 else true, metadata)
    else (matched, metadata)

/-- `abstractLogicalRule.Match`. -/
def logicalMatch (mode : LogicalType) (rules : List Matcher) (invert : Bool) : Matcher :=
  fun metadata =>
    concludeRules (snapshotRuleMatch metadata) invert <|
      match mode with
      | .and => matchAllRules rules 0 metadata
      | .or => matchAnyRule InboundContext.resetRuleCache rules false 0 metadata

/-- `matchAnyHeadlessRule`. -/
def matchAnyHeadlessRule (rules : List Matcher) : Matcher := fun metadata =>
  concludeRules (snapshotRuleMatch metadata) false <|
    matchAnyRule InboundContext.resetRuleMatchCache rules false 0 metadata

/-- A rule with its sub-rules; `δ` is the kind of its default rules. -/
inductive RuleTree (δ : Type) where
  | default (rule : δ)
  | logical (mode : LogicalType) (rules : List (RuleTree δ)) (invert : Bool)

namespace RuleTree
variable {δ : Type}

mutual
/-- `Match` of a rule, given `Match` of its default rules. -/
def matchOn (matchDefault : δ → Matcher) : RuleTree δ → Matcher
  | .default rule => matchDefault rule
  | .logical mode rules invert => logicalMatch mode (matchers matchDefault rules) invert

def matchers (matchDefault : δ → Matcher) : List (RuleTree δ) → List Matcher
  | [] => []
  | rule :: rest => matchOn matchDefault rule :: matchers matchDefault rest
end

theorem matchers_eq_map (matchDefault : δ → Matcher) (rules : List (RuleTree δ)) :
    matchers matchDefault rules = rules.map (matchOn matchDefault) := by
  induction rules with
  | nil => rfl
  | cons rule rest ih => rw [matchers, ih, List.map_cons]

/-- Induction over a rule tree with one hypothesis for each sub-rule. -/
theorem ind {P : RuleTree δ → Prop} (default : ∀ rule, P (.default rule))
    (logical : ∀ mode rules invert, (∀ rule ∈ rules, P rule) → P (.logical mode rules invert)) :
    ∀ rule, P rule
  | .default rule => default rule
  | .logical mode rules invert =>
    logical mode rules invert fun rule _ => ind default logical rule
  termination_by rule => sizeOf rule
  decreasing_by
    have := List.sizeOf_lt_of_mem ‹rule ∈ rules›
    rw [RuleTree.logical.sizeOf_spec]
    omega

mutual
/-- The default rules of a rule. -/
def leaves : RuleTree δ → List δ
  | .default rule => [rule]
  | .logical _ rules _ => leavesOf rules

def leavesOf : List (RuleTree δ) → List δ
  | [] => []
  | rule :: rest => leaves rule ++ leavesOf rest
end

variable {rules : List (RuleTree δ)} {leaf : δ}

theorem mem_leavesOf_iff : leaf ∈ leavesOf rules ↔ ∃ rule ∈ rules, leaf ∈ rule.leaves := by
  induction rules with
  | nil => simp [leavesOf]
  | cons first rest ih => simp [leavesOf, ih]

theorem exists_leavesOf {p : δ → Prop} :
    (∃ leaf ∈ leavesOf rules, p leaf) ↔ ∃ rule ∈ rules, ∃ leaf ∈ rule.leaves, p leaf := by
  induction rules with
  | nil => simp [leavesOf]
  | cons first rest ih => simp [leavesOf, or_and_right, exists_or, ih]

variable {rule : RuleTree δ}

theorem mem_leavesOf (member : rule ∈ rules) (below : leaf ∈ rule.leaves) : leaf ∈ leavesOf rules :=
  mem_leavesOf_iff.mpr ⟨rule, member, below⟩

theorem mem_leaves_logical {mode : LogicalType} {invert : Bool} (member : rule ∈ rules)
    (below : leaf ∈ rule.leaves) : leaf ∈ (RuleTree.logical mode rules invert).leaves :=
  mem_leavesOf member below

mutual
/-- The same tree with every default rule replaced. -/
def map {ε : Type} (f : δ → ε) : RuleTree δ → RuleTree ε
  | .default rule => .default (f rule)
  | .logical mode rules invert => .logical mode (mapList f rules) invert

def mapList {ε : Type} (f : δ → ε) : List (RuleTree δ) → List (RuleTree ε)
  | [] => []
  | rule :: rest => map f rule :: mapList f rest
end

theorem mapList_eq_map {ε : Type} (f : δ → ε) (rules : List (RuleTree δ)) :
    mapList f rules = rules.map (map f) := by
  induction rules with
  | nil => rfl
  | cons rule rest ih => rw [mapList, ih, List.map_cons]

end RuleTree
end AmneziaBox.Source.Rule
