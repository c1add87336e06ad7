import AmneziaBox.Source.Rule.AbstractRule

/-!
# Headless rules, rule-sets and the rule-set item

`route/rule/rule_headless.go`, `rule_set_local.go`, `rule_set_remote.go` and
`rule_item_rule_set.go`. A rule-set is a list of headless rules. A rule-set item
refers to several sets and carries the two flags under which their `ip_cidr`
items are read; the flags travel to those items through the rule cache.
-/
namespace AmneziaBox.Source.Rule
open Adapter

abbrev DefaultHeadlessRule := AbstractDefaultRule Empty

def DefaultHeadlessRule.matchOn : DefaultHeadlessRule → Matcher :=
  AbstractDefaultRule.matchOn fun item => item.elim

abbrev HeadlessRule := RuleTree DefaultHeadlessRule

def HeadlessRule.matchOn : HeadlessRule → Matcher :=
  RuleTree.matchOn DefaultHeadlessRule.matchOn

/-- `adapter.RuleSetMetadata`, what the loader records about a rule-set. -/
structure RuleSetMetadata where
  containsProcessRule : Bool := false
  containsWIFIRule : Bool := false
  containsIPCIDRRule : Bool := false
  containsDNSQueryTypeRule : Bool := false
  containsNonIPCIDRRule : Bool := false
  deriving DecidableEq, Repr

structure RuleSet where
  rules : List HeadlessRule
  metadata : RuleSetMetadata := {}

/-- `LocalRuleSet.Match` and `RemoteRuleSet.Match`. -/
def RuleSet.matchOn (ruleSet : RuleSet) : Matcher :=
  matchAnyHeadlessRule (ruleSet.rules.map HeadlessRule.matchOn)

/-- A set of exactly one default rule that is not inverted; its groups are joined
with those of the rule that refers to the set. -/
def mergeableRuleIn : List HeadlessRule → Option DefaultHeadlessRule
  | [.default rule] => if rule.invert then none else some rule
  | _ => none

theorem mergeableRuleIn_eq_some {rules : List HeadlessRule} {branch : DefaultHeadlessRule} :
    mergeableRuleIn rules = some branch ↔ rules = [.default branch] ∧ branch.invert = false := by
  unfold mergeableRuleIn
  split
  · rename_i rule
    cases inverted : rule.invert <;> simp
    · rintro rfl
      exact inverted
    · rintro rfl
      exact inverted
  · rename_i other
    simp only [reduceCtorEq, false_iff, not_and]
    intro same
    exact absurd same (other branch)

theorem mem_leavesOf_of_mergeable {rules : List HeadlessRule} {branch : DefaultHeadlessRule}
    (merged : mergeableRuleIn rules = some branch) : branch ∈ RuleTree.leavesOf rules := by
  obtain ⟨rfl, -⟩ := mergeableRuleIn_eq_some.mp merged
  simp [RuleTree.leavesOf, RuleTree.leaves]

structure RuleSetItem where
  setList : List RuleSet
  ipCIDRMatchSource : Bool := false
  ipCIDRAcceptEmpty : Bool := false

namespace RuleSetItem

def prepareNestedMatch (item : RuleSetItem) (metadata : InboundContext) : InboundContext :=
  { metadata.resetRuleMatchCache with
    ipCIDRMatchSource := item.ipCIDRMatchSource
    ipCIDRAcceptEmpty := item.ipCIDRAcceptEmpty }

/-- The loop of `matchWithOuterGroups`. It ends early, with the caller's cache back
in place, at the first set that matches with nothing deferred. -/
def matchSets (item : RuleSetItem) (outerGroups : RuleGroupMatch)
    (snapshot : RuleMatchSnapshot) :
    List RuleSet → Bool → BitVec 8 → InboundContext → Bool × InboundContext
  | [], matched, deferredGroups, metadata =>
    (matched, restoreWithDeferred snapshot matched deferredGroups metadata)
  | ruleSet :: rest, matched, deferredGroups, metadata =>
    let metadata := item.prepareNestedMatch metadata
    match mergeableRuleIn ruleSet.rules with
    | some branch =>
      let (branchGroups, metadata) := branch.evaluateForMerge metadata
      match branchGroups with
      | some branchGroups =>
        let merged := outerGroups.mergeWith branchGroups
        if merged.done then
          let branchDeferredGroups := metadata.deferredIPCIDRMatchGroups &&& ~~~merged.satisfied
          if branchDeferredGroups = 0 then
            let metadata := snapshot.restore metadata
            (true,
              metadata.withDeferred (metadata.deferredIPCIDRMatchGroups &&& ~~~merged.satisfied))
          else
            matchSets item outerGroups snapshot rest true (deferredGroups ||| branchDeferredGroups)
              metadata
        else matchSets item outerGroups snapshot rest matched deferredGroups metadata
      | none => matchSets item outerGroups snapshot rest matched deferredGroups metadata
    | none =>
      if outerGroups.done then
        let (setMatched, metadata) := ruleSet.matchOn metadata
        if setMatched then
          if metadata.deferredIPCIDRMatchGroups = 0 then (true, snapshot.restore metadata)
          else
            matchSets item outerGroups snapshot rest true
              (deferredGroups ||| metadata.deferredIPCIDRMatchGroups) metadata
        else matchSets item outerGroups snapshot rest matched deferredGroups metadata
      else matchSets item outerGroups snapshot rest matched deferredGroups metadata

def matchWithOuterGroups (item : RuleSetItem) (outerGroups : RuleGroupMatch) : Matcher :=
  fun metadata =>
    item.matchSets outerGroups (snapshotRuleMatch metadata) item.setList false 0 metadata

/-- `ContainsDestinationIPCIDRRule`. -/
def containsDestinationIPCIDRRule (item : RuleSetItem) : Bool :=
  if item.ipCIDRMatchSource then false
  else item.setList.any fun ruleSet => ruleSet.metadata.containsIPCIDRRule

end RuleSetItem

/-- `route/rule/rule_default.go`: the rules of the connection router. -/
abbrev DefaultRule := AbstractDefaultRule RuleSetItem

def DefaultRule.matchOn : DefaultRule → Matcher :=
  AbstractDefaultRule.matchOn RuleSetItem.matchWithOuterGroups

abbrev RouteRule := RuleTree DefaultRule

def RouteRule.matchOn : RouteRule → Matcher := RuleTree.matchOn DefaultRule.matchOn

end AmneziaBox.Source.Rule
