import AmneziaBox.Guarantees.LegacyPreMatch
import AmneziaBox.Source.DNS.LegacyRouter

/-!
# Legacy DNS rules: two passes against one

`matchDNS` takes a rule when `LegacyPreMatch` holds, and its response is kept when
`addressLimitResponseCheck` has nothing to check or the check holds. Together the
two passes should accept a query and a response exactly when the documented formula
holds on them, which is what `MatchAddressLimit` alone computes.

The second pass only runs when `WithAddressLimit` is true, so that function must see
every rule that depends on the response; and the first pass must never drop a rule
that the response could still satisfy. The first holds for loaded rule-sets. The
second fails for a rule with domain items and addresses whose domain misses
(`domain_miss_drops_address_match`), and under an inversion in one more way.
-/
namespace AmneziaBox.Guarantees.LegacyFlow
open Source.Adapter Source.Rule Source.DNS Library RuleSemantics RuleSetFlags TwoPhase DNSRuleTree Option List
open RuleTree
open LegacyPreMatch
open Source.Rule.DefaultDNSRule (onResponse)

/-- The flow of a legacy address query through one rule: the rule is taken before the
lookup, and the response passes the check that comes with it. -/
def legacyAccepts (rule : DNSRule) (metadata : InboundContext) (response : Msg) : Bool :=
  let (matched, metadata) := rule.tree.legacyPreMatch (cleared metadata)
  matched &&
    match addressLimitResponseCheck (some (0, rule)) metadata with
    | none => true
    | some check => check (some response)

/-! ## Flags spelled out on a DNS rule -/

def spellOutLeaf (leaf : DefaultDNSRule) : DefaultDNSRule :=
  { leaf with toAbstractDefaultRule := spellOutRule leaf.toAbstractDefaultRule }

def spellOutDNS : DNSRuleTree → DNSRuleTree := map spellOutLeaf

variable {leaf : DefaultDNSRule}

/-- The flags reach what an evaluation of the tree comes to. -/
def DNSReaches (metadata : InboundContext) (tree : DNSRuleTree) : Prop :=
  ∀ sign leaf, (sign, leaf) ∈ tree.visited DefaultDNSRule.verdict metadata true →
    RuleReach metadata leaf.toAbstractDefaultRule

variable {tree : DNSRuleTree} {metadata : InboundContext}

theorem verdict_spellOutDNS (fresh : metadata.Fresh) (unbound : tree.NoMatchResponse)
    (reach : DNSReaches metadata tree) :
    verdict metadata tree = verdict metadata (spellOutDNS tree) := by
  refine RuleTree.verdict_map fresh tree true fun sign leaf below => ?_
  have plain : leaf.matchResponse = false := unbound leaf (mem_leaves_of_visited below)
  have spelled : (spellOutLeaf leaf).matchResponse = false := plain
  rw [DefaultDNSRule.verdict, DefaultDNSRule.verdict, plain, spelled]
  exact verdict_spellOutRule (reach sign leaf below)

theorem leaves_map {δ ε : Type} (f : δ → ε) (rule : RuleTree δ) :
    (rule.map f).leaves = rule.leaves.map f := by
  induction rule using ind with
  | default rule => rfl
  | logical mode rules invert ih =>
    rw [RuleTree.map, mapList_eq_map, leaves, leaves]
    induction rules with
    | nil => rfl
    | cons first rest each =>
      rw [map_cons, leavesOf, leavesOf, map_append, ih first (by simp),
        each fun rule member => ih rule (by simp [member])]

/-! ## The shape of legacy rules, with flags -/

/-- What a loaded rule-set records about itself: whether some rule of it, at any
depth, has destination IP items. -/
def Recorded (ruleSet : RuleSet) : Prop :=
  ruleSet.metadata.containsIPCIDRRule = (leavesOf ruleSet.rules).any hasIP

/-- A default rule of legacy mode, flags allowed. The destination IP items of a
headless rule are `ip_cidr` items. -/
structure FlaggedLeaf (leaf : DefaultDNSRule) : Prop where
  unbound : leaf.matchResponse = false
  queryOnly : QueryOnly leaf.toAbstractDefaultRule
  setsQueryOnly : ∀ item ∈ leaf.ruleSetItem, ∀ ruleSet ∈ item.setList,
    ∀ headless ∈ leavesOf ruleSet.rules, QueryOnly headless
  setsIPCIDR : ∀ item ∈ leaf.ruleSetItem, ∀ ruleSet ∈ item.setList,
    ∀ headless ∈ leavesOf ruleSet.rules,
      ∀ address ∈ headless.destinationIPCIDRItems, ∃ ipSet, address = .ipCIDR ipSet
  recorded : ∀ item ∈ leaf.ruleSetItem, ∀ ruleSet ∈ item.setList, Recorded ruleSet

theorem spellOutDefault_queryOnly (item : RuleSetItem) {headless : DefaultHeadlessRule}
    (queryOnly : QueryOnly headless)
    (addresses : ∀ address ∈ headless.destinationIPCIDRItems, ∃ ipSet, address = .ipCIDR ipSet) :
    QueryOnly (spellOutDefault item headless) := by
  unfold spellOutDefault
  split
  · refine ⟨queryOnly.items, ?_, queryOnly.sourcePort, queryOnly.destinationAddress,
      queryOnly.destinationPort⟩
    intro source member
    rcases mem_append.mp member with own | moved
    · exact queryOnly.sourceAddress source own
    · obtain ⟨address, inside, rfl⟩ := mem_map.mp moved
      obtain ⟨ipSet, rfl⟩ := addresses address inside
      exact sourceIPCIDRItem_queryOnly ipSet
  · split
    · exact ⟨queryOnly.items, queryOnly.sourceAddress, queryOnly.sourcePort,
        queryOnly.destinationAddress, queryOnly.destinationPort⟩
    · exact queryOnly

theorem leavesOf_map {δ ε : Type} (f : δ → ε) (rules : List (RuleTree δ)) :
    leavesOf (rules.map (map f)) = (leavesOf rules).map f := by
  induction rules with
  | nil => rfl
  | cons first rest ih =>
    rw [map_cons, leavesOf, leavesOf, map_append, leaves_map, ih]

/-- A rule of a set, with the flags of the item that names the set spelled out in it. -/
theorem spelledOut_leaf {spelled : RuleSetItem} (hasItem : spelled ∈ (spellOutLeaf leaf).ruleSetItem)
    {ruleSet : RuleSet} (inside : ruleSet ∈ spelled.setList) {headless : DefaultHeadlessRule}
    (member : headless ∈ leavesOf ruleSet.rules) :
    ∃ item original unspelled, leaf.ruleSetItem = some item ∧ original ∈ item.setList ∧
      unspelled ∈ leavesOf original.rules ∧ headless = spellOutDefault item unspelled := by
  obtain ⟨item, own, rfl⟩ := map_eq_some_iff.mp hasItem
  obtain ⟨original, listed, rfl⟩ := mem_map.mp inside
  rw [spellOutSet, leavesOf_map] at member
  obtain ⟨unspelled, below, rfl⟩ := mem_map.mp member
  exact ⟨item, original, unspelled, own, listed, below, rfl⟩

/-- With its flags spelled out, the rule has the shape of a legacy rule without flags. -/
theorem FlaggedLeaf.legacy (flagged : FlaggedLeaf leaf) :
    LegacyLeaf (spellOutLeaf leaf) where
  unbound := flagged.unbound
  flagsOff spelled hasItem := by
    obtain ⟨item, -, rfl⟩ := map_eq_some_iff.mp hasItem
    exact ⟨rfl, rfl⟩
  queryOnly := ⟨flagged.queryOnly.items, flagged.queryOnly.sourceAddress,
    flagged.queryOnly.sourcePort, flagged.queryOnly.destinationAddress,
    flagged.queryOnly.destinationPort⟩
  setsQueryOnly spelled hasItem ruleSet inside headless member := by
    obtain ⟨item, original, unspelled, own, listed, below, rfl⟩ :=
      spelledOut_leaf hasItem inside member
    exact spellOutDefault_queryOnly item (flagged.setsQueryOnly item own original listed _ below)
      (flagged.setsIPCIDR item own original listed _ below)

/-! ## A rule that `WithAddressLimit` does not see -/

theorem withAddressLimit_eq_false :
    tree.withAddressLimit = false → ∀ leaf ∈ tree.leaves, leaf.withAddressLimit = false := by
  induction tree using ind with
  | default rule =>
    intro none leaf member
    simp only [leaves, mem_singleton] at member
    rw [member]
    exact none
  | logical mode rules invert ih =>
    intro none leaf member
    rw [withAddressLimit] at none
    rw [leaves] at member
    induction rules with
    | nil => cases member
    | cons first rest each =>
      rw [anyWithAddressLimit, Bool.or_eq_false_iff] at none
      rw [leavesOf, mem_append] at member
      rcases member with here | later
      · exact ih first (by simp) none.1 leaf here
      · exact each (fun rule member => ih rule (by simp [member])) none.2 later

/-- Neither the rule nor its sets have a destination IP item once flags are spelled out. -/
structure NoIP (leaf : DefaultDNSRule) : Prop where
  own : hasIP leaf.toAbstractDefaultRule = false
  sets : ∀ item ∈ leaf.ruleSetItem, ∀ ruleSet ∈ item.setList,
    ∀ headless ∈ leavesOf ruleSet.rules, hasIP headless = false

theorem FlaggedLeaf.noIP (flagged : FlaggedLeaf leaf) (unlimited : leaf.withAddressLimit = false) :
    NoIP (spellOutLeaf leaf) where
  own := by
    rw [DefaultDNSRule.withAddressLimit, Bool.or_eq_false_iff] at unlimited
    exact unlimited.1
  sets spelled hasItem ruleSet inside headless member := by
    obtain ⟨item, original, unspelled, own, listed, below, rfl⟩ :=
      spelledOut_leaf hasItem inside member
    rw [DefaultDNSRule.withAddressLimit, Bool.or_eq_false_iff, own] at unlimited
    have unseen : item.containsDestinationIPCIDRRule = false := unlimited.2
    unfold RuleSetItem.containsDestinationIPCIDRRule at unseen
    by_cases source : item.ipCIDRMatchSource = true
    · simp [spellOutDefault, source, hasIP]
    · rw [if_neg source, List.any_eq_false] at unseen
      have none := unseen original listed
      rw [flagged.recorded item own original listed, List.any_eq_true] at none
      have without : hasIP unspelled = false := by
        rw [← Bool.not_eq_true]
        exact fun ip => none ⟨unspelled, below, ip⟩
      unfold spellOutDefault
      rw [if_neg source]
      split
      · simpa [hasIP] using without
      · exact without

/-- Without destination IP items the two passes see the same groups. -/
theorem agrees_of_noIP {σ : Type} {before after : InboundContext} {rule : AbstractDefaultRule σ}
    (ruleGrown : Grown before after rule) (none : hasIP rule = false) :
    Agrees before after rule where
  items := ruleGrown.items
  required := by
    rw [ruleGrown.asked, none]
    simp [GroupFlags.union, addressFlag]
  satisfied := by
    have unmatched : matchAnyIPItem rule.destinationIPCIDRItems after = false := by
      rw [← Bool.not_eq_true]
      intro matched
      rw [matchAnyIPItem_hasIP matched] at none
      cases none
    rw [ruleGrown.met, unmatched]
    simp [GroupFlags.union, addressFlag]
  settled := by rw [ruleGrown.defers, none, Bool.false_and]

variable {metadata : InboundContext}

/-- The pass before the lookup is final on a rule without destination IP items. -/
theorem verdict_of_noIP (fresh : metadata.Fresh) (response : Option Msg)
    (legacy : ∀ leaf ∈ tree.leaves, LegacyLeaf leaf) (none : ∀ leaf ∈ tree.leaves, NoIP leaf) :
    verdict (preLookup metadata) tree =
      .ofBool (documentedDNS (onResponse metadata.resetRuleCache response) tree) := by
  have phases := phases_of_fresh fresh response
  apply verdict_eq_documentedTree phases.fresh
  intro leaf member
  have shape := legacy leaf member
  rw [DefaultDNSRule.verdict, shape.unbound]
  apply verdict_eq_documentedDefault
    (agrees_of_noIP (grown phases shape.queryOnly) (none leaf member).own)
  intro item hasItem outer
  rw [RuleSetItem.outcome, prepareNestedMatch_of_fresh phases.fresh (shape.flagsOff item hasItem)]
  apply setsOutcome_decides phases.fresh
  intro ruleSet inside headless below
  exact agrees_of_noIP (grown phases (shape.setsQueryOnly item hasItem ruleSet inside _ below))
    ((none leaf member).sets item hasItem ruleSet inside _ below)

/-! ## The two passes are one -/

/-- The check is the verdict on the response. -/
theorem matchAddressLimit_congr {other : DNSRuleTree} (unbound : tree.NoMatchResponse)
    (unbound' : other.NoMatchResponse) {response : Option Msg}
    (same : verdict (onResponse metadata.resetRuleCache response) tree =
      verdict (onResponse metadata.resetRuleCache response) other) :
    tree.matchAddressLimit metadata response = other.matchAddressLimit metadata response := by
  rw [matchAddressLimit, matchAddressLimit, abstractMatch_of_noMatchResponse unbound,
    abstractMatch_of_noMatchResponse unbound', (tree.matchOn_settles _ rfl).fst,
    (other.matchOn_settles _ rfl).fst, same]

/-- The check reads nothing that the first pass wrote. -/
theorem matchAddressLimit_after_legacyPreMatch (tree : DNSRuleTree)
    (unignored : metadata.ignoreDestinationIPCIDRMatch = false) (response : Option Msg) :
    tree.matchAddressLimit (tree.legacyPreMatch (cleared metadata)).2 response =
      tree.matchAddressLimit metadata response := by
  obtain ⟨groups, result⟩ :=
    tree.legacyPreMatch_frame (rfl : (cleared metadata).deferredIPCIDRMatchGroups = 0) unignored
  rw [result]
  rfl

/-- The flow in one formula. -/
theorem legacyAccepts_eq (rule : DNSRule)
    (unignored : metadata.ignoreDestinationIPCIDRMatch = false) (response : Msg) :
    legacyAccepts rule metadata response =
      ((rule.tree.legacyPreMatch (cleared metadata)).1 &&
        (!rule.tree.withAddressLimit ||
          rule.tree.matchAddressLimit metadata (some response))) := by
  have check := matchAddressLimit_after_legacyPreMatch rule.tree unignored (some response)
  unfold legacyAccepts addressLimitResponseCheck
  by_cases limited : rule.tree.withAddressLimit = true
  · simp [limited, check]
  · simp [limited]

/-- The flow of a rule accepts a query and a response exactly when `MatchAddressLimit`
accepts them, and exactly when the documented formula holds on them, provided the flags
reach what the two passes come to and every default rule that the first pass comes to is
sound on the side its sign asks for. -/
theorem legacyAccepts_eq_matchAddressLimit (rule : DNSRule)
    (flagged : ∀ leaf ∈ rule.tree.leaves, FlaggedLeaf leaf) {metadata : InboundContext}
    (unignored : metadata.ignoreDestinationIPCIDRMatch = false) (response : Msg)
    (reach : DNSReaches (preLookup (cleared metadata)) rule.tree ∧
      DNSReaches (onResponse metadata.resetRuleCache (some response)) rule.tree)
    (sound : ∀ sign leaf, (sign, leaf) ∈ (spellOutDNS rule.tree).visited DefaultDNSRule.verdict
      (preLookup (cleared metadata)) true →
      leaf.matchItems (preLookup (cleared metadata)) = true →
      LeafSound (preLookup (cleared metadata)) (onResponse metadata.resetRuleCache (some response))
        (sign ^^ leaf.invert) leaf.toAbstractDefaultRule) :
    legacyAccepts rule metadata response =
      rule.tree.matchAddressLimit metadata (some response) ∧
    legacyAccepts rule metadata response =
      documentedDNS (onResponse metadata.resetRuleCache (some response))
        (spellOutDNS rule.tree) := by
  have legacy : ∀ leaf ∈ (spellOutDNS rule.tree).leaves, LegacyLeaf leaf := by
    intro leaf member
    rw [spellOutDNS, leaves_map] at member
    obtain ⟨original, below, rfl⟩ := mem_map.mp member
    exact (flagged original below).legacy
  have unbound : rule.tree.NoMatchResponse := fun leaf member => (flagged leaf member).unbound
  have unbound' : (spellOutDNS rule.tree).NoMatchResponse :=
    fun leaf member => (legacy leaf member).unbound
  have fresh : (cleared metadata).Fresh := ⟨rfl, rfl, rfl⟩
  have formula : rule.tree.matchAddressLimit metadata (some response) =
      documentedDNS (onResponse metadata.resetRuleCache (some response))
        (spellOutDNS rule.tree) := by
    rw [matchAddressLimit_congr unbound unbound'
      (verdict_spellOutDNS ⟨rfl, rfl, rfl⟩ unbound reach.2)]
    exact matchAddressLimit_eq_documented legacy unignored (some response)
  obtain ⟨dropped, -⟩ := legacyPreMatch_verdict unbound fresh.deferred
  rw [verdict_spellOutDNS ⟨rfl, rfl, rfl⟩ unbound reach.1] at dropped
  rw [← formula, and_self, legacyAccepts_eq rule unignored]
  cases limited : rule.tree.withAddressLimit with
  | true =>
    -- the check runs: the first pass must not have dropped what it would accept
    have bounds : Verdict.Bounds true (verdict (preLookup (cleared metadata))
        (spellOutDNS rule.tree)) (rule.tree.matchAddressLimit metadata (some response)) := by
      rw [formula]
      exact tree_legacy_bounds fresh (some response) legacy sound
    rw [Bool.not_true, Bool.false_or]
    cases first : (rule.tree.legacyPreMatch (cleared metadata)).1 with
    | true => rw [Bool.true_and]
    | false => rw [Bool.false_and, bounds (dropped.mp first)]
  | false =>
    -- nothing depends on the response: the first pass is final
    have none : ∀ leaf ∈ (spellOutDNS rule.tree).leaves, NoIP leaf := by
      intro leaf member
      rw [spellOutDNS, leaves_map] at member
      obtain ⟨original, below, rfl⟩ := mem_map.mp member
      exact (flagged original below).noIP (withAddressLimit_eq_false limited original below)
    have final := verdict_of_noIP fresh (some response) legacy none
    have seen : onResponse (cleared metadata).resetRuleCache (some response) =
        onResponse metadata.resetRuleCache (some response) := rfl
    rw [seen, ← formula] at final
    rw [final, Verdict.ofBool_eq_no] at dropped
    rw [Bool.not_false, Bool.true_or, Bool.and_true]
    cases value : rule.tree.matchAddressLimit metadata (some response) with
    | false => exact dropped.mpr value
    | true =>
      rw [← Bool.not_eq_false]
      intro isFalse
      rw [dropped.mp isFalse] at value
      cases value

/-- A rule on a domain and on addresses, both in the destination group. -/
def mixedRule : DNSRule where
  tree := .default
    { destinationAddressItems := [fun input => input.domain == "other.org"]
      destinationIPCIDRItems := [.ipCIDR fun addr => addr == .ipv4 0x0a000001] }
  action := .route "server" false {}

/-- The domain misses and the address of the response matches: the formula holds, but
the rule is dropped before the lookup. -/
theorem domain_miss_drops_address_match :
    mixedRule.tree.withAddressLimit = true ∧
    (mixedRule.tree.legacyPreMatch (cleared query)).1 = false ∧
    legacyAccepts mixedRule query addressResponse = false ∧
    mixedRule.tree.matchAddressLimit query (some addressResponse) = true := by
  decide

/-- A query for the domain of the rule. -/
def matchedQuery : InboundContext := { query with domain := "other.org" }

/-- The same rule where its domain matches. -/
theorem domain_match_accepted :
    legacyAccepts mixedRule matchedQuery addressResponse = true ∧
    legacyAccepts mixedRule matchedQuery addressResponse =
      mixedRule.tree.matchAddressLimit matchedQuery (some addressResponse) := by
  have flagged : ∀ leaf ∈ mixedRule.tree.leaves, FlaggedLeaf leaf := by
    intro leaf member
    cases mem_singleton.mp member
    refine ⟨rfl, ⟨by simp, by simp, by simp, ?_, by simp⟩, nofun, nofun, nofun⟩
    exact forall_mem_singleton.mpr otherOrg_queryOnly
  have reach (seen : InboundContext) : DNSReaches seen mixedRule.tree := by
    intro sign leaf below _ item hasItem
    cases mem_singleton.mp (mem_leaves_of_visited below)
    cases hasItem
  refine ⟨by decide, (legacyAccepts_eq_matchAddressLimit mixedRule flagged
    (rfl : matchedQuery.ignoreDestinationIPCIDRMatch = false) addressResponse
    ⟨reach _, reach _⟩ ?_).1⟩
  intro sign leaf member _
  cases mem_singleton.mp member
  refine ⟨fun _ _ clash => ?_, nofun, nofun⟩
  have missed : false = true := clash.2.2.1.symm.trans (by decide)
  cases missed

end AmneziaBox.Guarantees.LegacyFlow
