import AmneziaBox.Guarantees.RuleSemantics
import AmneziaBox.Source.Rule.DNSRule

/-!
# The pre-lookup pass against the response

The pass before the lookup evaluates a rule on metadata `before`, with its
destination IP items ignored; the documented formula is evaluated on `after`,
which carries the response. The verdict of the pass is compared with the formula
from the two sides of `Verdict.Bounds`. On either side a default rule can go
wrong in one way only:

* too strict (`Clash`): domain items and destination IP items answer for one group,
  no domain item matches, and the IP items are not waited for;
* too sure (`ClearsWait`): a domain item matches and wipes out the wait that an
  independent rule-set of the rule still needs.

Which of the two matters for a default rule depends on the sign under which it
stands, its own inversion included; and neither matters for a rule or a set that the
pass before the lookup does not come to.
-/
namespace AmneziaBox.Guarantees.TwoPhase
open Source.Adapter Source.Rule Library RuleSemantics AbstractDefaultRule GroupAnswers RuleSetItem GroupFlags
open Verdict

/-- The metadata of the two passes over one query. -/
structure Phases (before after : InboundContext) : Prop where
  fresh : before.Fresh
  ignored : before.ignoreDestinationIPCIDRMatch = true
  query : before.toQuery = after.toQuery

section Rules
variable {σ : Type}

def hasDomain (rule : AbstractDefaultRule σ) : Bool := !rule.destinationAddressItems.isEmpty

def hasIP (rule : AbstractDefaultRule σ) : Bool := !rule.destinationIPCIDRItems.isEmpty

def domainMatches (rule : AbstractDefaultRule σ) (metadata : InboundContext) : Bool :=
  matchAnyItem rule.destinationAddressItems metadata

/-- All items but the destination IP items read the query only. -/
structure QueryOnly (rule : AbstractDefaultRule σ) : Prop where
  items : ∀ item ∈ rule.items, item.QueryOnly
  sourceAddress : ∀ item ∈ rule.sourceAddressItems, item.QueryOnly
  sourcePort : ∀ item ∈ rule.sourcePortItems, item.QueryOnly
  destinationAddress : ∀ item ∈ rule.destinationAddressItems, item.QueryOnly
  destinationPort : ∀ item ∈ rule.destinationPortItems, item.QueryOnly

/-- The destination address group alone. -/
def addressFlag (value : Bool) : GroupFlags := ⟨false, false, value, false⟩

/-- How the groups of the two passes are related: the second adds the destination
IP items to the destination address group. -/
structure Grown (before after : InboundContext) (rule : AbstractDefaultRule σ) : Prop where
  items : rule.matchItems before = rule.matchItems after
  asked : (groupAnswers rule after).asked = (rule.required before).union (addressFlag (hasIP rule))
  met : (groupAnswers rule after).met = (rule.satisfied before).union
    (addressFlag (matchAnyIPItem rule.destinationIPCIDRItems after))
  required : (rule.required before).destinationAddress = hasDomain rule
  satisfied : (rule.satisfied before).destinationAddress = domainMatches rule before
  defers : rule.defersDestination before = (hasIP rule && !hasDomain rule)

theorem grown {before after : InboundContext} (phases : Phases before after)
    {rule : AbstractDefaultRule σ} (queryOnly : QueryOnly rule) : Grown before after rule := by
  have source := phases.fresh.matchSource
  have ignored := phases.ignored
  have any (items : List RuleItem) (only : ∀ item ∈ items, item.QueryOnly) :
      matchAnyItem items before = items.any fun item => item after.toMatchInput :=
    Library.any_congr_mem fun item member => only item member _ _ phases.query
  refine ⟨Library.all_congr_mem fun item member => queryOnly.items item member _ _ phases.query,
    ?_, ?_, ?_, ?_, ?_⟩
  · simp [asked, groupAnswers, required, union,
      addressFlag, hasIP, isEmpty_append, destinationIPCIDRMatchesSource,
      destinationIPCIDRMatchesDestination, source, ignored]
  · simp [met, groupAnswers, satisfied, union, addressFlag, destinationIPCIDRMatchesSource,
      destinationIPCIDRMatchesDestination, source, ignored, any _ queryOnly.sourceAddress,
      any _ queryOnly.sourcePort, any _ queryOnly.destinationAddress,
      any _ queryOnly.destinationPort, matchAnyIPItem]
  · simp [required, hasDomain,
      destinationIPCIDRMatchesDestination, ignored]
  · simp [satisfied, domainMatches,
      destinationIPCIDRMatchesDestination, ignored]
  · simp [defersDestination, hasIP, hasDomain, source, ignored]

end Rules

/-! ## Coverage when the destination IP items are added -/

variable {required satisfied : GroupFlags}

theorem covered_of_grown {asks answers : Bool} (answered : answers = true → asks = true)
    (clashFree : required.destinationAddress = true → asks = true →
      satisfied.destinationAddress = true)
    (covered : (required.union (addressFlag asks)).coveredBy (satisfied.union
      (addressFlag answers)) = true) : required.coveredBy satisfied = true := by
  rcases required with ⟨a, b, c, d⟩
  rcases satisfied with ⟨a', b', c', d'⟩
  cases c <;> cases c' <;> cases asks <;> cases answers <;>
    simp_all [coveredBy, union, addressFlag]

theorem grown_covered {asks answers : Bool} (covered : required.coveredBy satisfied = true)
    (settled : asks = true → satisfied.destinationAddress = true) :
    (required.union (addressFlag asks)).coveredBy (satisfied.union (addressFlag answers)) = true := by
  rcases required with ⟨a, b, c, d⟩
  rcases satisfied with ⟨a', b', c', d'⟩
  cases c <;> cases c' <;> cases asks <;> cases answers <;>
    simp_all [coveredBy, union, addressFlag]

theorem union_addressFlag (flags other : GroupFlags) (value value' : Bool) :
    (flags.union (addressFlag value)).union (other.union (addressFlag value')) =
      (flags.union other).union (addressFlag (value || value')) := by
  rcases flags with ⟨a, b, c, d⟩
  rcases other with ⟨a', b', c', d'⟩
  simp only [union, addressFlag, GroupFlags.mk.injEq, Bool.or_false, true_and, and_true]
  cases c <;> cases c' <;> cases value <;> rfl

theorem matchAnyIPItem_hasIP {σ : Type} {rule : AbstractDefaultRule σ} {metadata : InboundContext}
    (matched : matchAnyIPItem rule.destinationIPCIDRItems metadata = true) : hasIP rule = true := by
  rw [hasIP]
  cases items : rule.destinationIPCIDRItems with
  | nil => simp [items, matchAnyIPItem] at matched
  | cons item rest => rfl

theorem satisfied_of_covered (covered : required.coveredBy satisfied = true)
    (asked : required.destinationAddress = true) : satisfied.destinationAddress = true := by
  simp only [coveredBy, Bool.and_eq_true, Bool.or_eq_true, Bool.not_eq_true'] at covered
  rcases covered.1.2 with no | yes
  · simp [asked] at no
  · exact yes

/-! ## One default rule -/

section Inner
variable {σ : Type} {before after : InboundContext}

/-- Domain items and destination IP items in one group, no domain item matches, yet the
groups hold on the response: the pass before the lookup says no where the addresses say
yes. -/
def Clash (rule : AbstractDefaultRule σ) (before after : InboundContext) : Prop :=
  hasDomain rule = true ∧ hasIP rule = true ∧ domainMatches rule before = false ∧
    (groupAnswers rule after).hold = true

variable {rule : AbstractDefaultRule σ}

variable {positive : Bool}

/-- The two sides for a rule-set field: `waits` is whether the rule itself waits. -/
def SetBounds (positive waits : Bool) (outcome : SetOutcome) (value : Bool) : Prop :=
  if positive then outcome = .missed → value = false
  else ∀ cleared, outcome = .settled cleared →
    (waits && !cleared.destinationAddress) = false → value = true

theorem setBounds_or {waits : Bool} {first second : SetOutcome} {a b : Bool}
    (hFirst : SetBounds positive waits first a)
    (hSecond : first.isSettled = false → SetBounds positive waits second b) :
    SetBounds positive waits (first.or second) (a || b) := by
  cases positive <;> cases first <;> cases second <;>
    simp_all [SetBounds, SetOutcome.or, SetOutcome.isSettled]

section
variable (grown : Grown before after rule)
include grown

theorem hold_of_settled (covered : (rule.required before).coveredBy (rule.satisfied before) = true)
    (settled : rule.defersDestination before = false) : (groupAnswers rule after).hold = true := by
  rw [hold_eq_covered, grown.asked, grown.met]
  refine grown_covered covered fun ip => ?_
  rw [grown.defers, ip, Bool.true_and, Bool.not_eq_false'] at settled
  exact satisfied_of_covered covered (grown.required.trans settled)

theorem covered_of_hold (clashFree : ¬Clash rule before after)
    (hold : (groupAnswers rule after).hold = true) :
    (rule.required before).coveredBy (rule.satisfied before) = true := by
  have covered := hold
  rw [hold_eq_covered, grown.asked, grown.met] at covered
  refine covered_of_grown matchAnyIPItem_hasIP (fun domain ip => ?_) covered
  rw [grown.required] at domain
  rw [grown.satisfied]
  by_contra missed
  exact clashFree ⟨domain, ip, by simpa using missed, hold⟩

/-- A default rule without rule-sets. -/
theorem inner_bounds_noSets
    (clashFree : rule.matchItems before = true → positive = true → ¬Clash rule before after) :
    Verdict.Bounds positive (rule.innerVerdict before none)
      (rule.matchItems after && (groupAnswers rule after).hold) := by
  have verdict : rule.innerVerdict before none =
      if rule.matchItems after then
        if (rule.required before).coveredBy (rule.satisfied before) then
          if rule.defersDestination before then .maybe else .yes
        else .no
      else .no := by
    rw [← grown.items]
    rfl
  rw [verdict]
  cases items : rule.matchItems after with
  | false => cases positive <;> simp [Verdict.Admits, Verdict.Grants]
  | true =>
    by_cases covered : (rule.required before).coveredBy (rule.satisfied before) = true
    · cases positive with
      | true => cases rule.defersDestination before <;> simp [covered, Verdict.Admits]
      | false =>
        cases settled : rule.defersDestination before with
        | true => simp [covered, Verdict.Grants]
        | false => simp [Verdict.Grants, hold_of_settled grown covered settled]
    · cases positive with
      | true =>
        have missed : (groupAnswers rule after).hold ≠ true := fun hold =>
          covered (covered_of_hold grown (clashFree (grown.items.trans items) rfl) hold)
        simp [Verdict.Admits, missed]
      | false => simp [covered, Verdict.Grants]

/-- A default rule with a rule-set field that answers `outcome` before the lookup and
`value` after it. -/
theorem inner_bounds_sets {outcome : SetOutcome} {value : Bool}
    (sets : rule.matchItems before = true →
      SetBounds positive (rule.defersDestination before) outcome value)
    (kept : rule.matchItems before = true → positive = false →
      ¬(domainMatches rule before = true ∧ outcome = .deferred ∧ value = false)) :
    Verdict.Bounds positive (rule.innerVerdict before (some outcome))
      (rule.matchItems after && value) := by
  unfold innerVerdict
  rw [grown.items, grown.satisfied]
  cases items : rule.matchItems after with
  | false => cases positive <;> simp [Verdict.Admits, Verdict.Grants]
  | true =>
    have matched : rule.matchItems before = true := grown.items.trans items
    replace sets := sets matched
    replace kept := kept matched
    cases outcome with
    | missed => cases positive <;> simp_all [SetBounds, Verdict.Admits, Verdict.Grants]
    | deferred =>
      cases positive <;> cases domain : domainMatches rule before <;>
        simp_all [Verdict.Admits, Verdict.Grants]
    | settled cleared =>
      cases positive with
      | true =>
        simp only [if_true, bounds_true, Verdict.Admits]
        split <;> simp
      | false =>
        simp only [if_true, bounds_false, Verdict.Grants]
        split
        · simp
        · rename_i settled
          intro _
          simpa using sets cleared rfl (by simpa using settled)

end

end Inner

variable {before : InboundContext}

theorem default_bounds {σ : Type} {after : InboundContext}
    {outcome : σ → GroupFlags → GroupFlags → InboundContext → SetOutcome}
    {sets : σ → GroupAnswers → Bool} {rule : AbstractDefaultRule σ} {positive : Bool}
    (inner : Verdict.Bounds (positive ^^ rule.invert) (rule.innerVerdict before
      (rule.ruleSetItem.map fun item => outcome item (rule.required before)
      (rule.satisfied before) before)) (documentedInner sets after rule)) :
    Verdict.Bounds positive (rule.verdict outcome before) (documentedDefault sets after rule) := by
  unfold verdict documentedDefault
  cases rule.hasNoItems with
  | true => cases positive <;> simp [Verdict.Admits, Verdict.Grants]
  | false => exact bounds_negateIf inner

/-! ## Trees -/

/-- Bounds on the default rules of a tree that the evaluation comes to, each on the side
its sign asks for, give the bound on the tree. -/
theorem tree_bounds {δ : Type} (fresh : before.Fresh)
    {verdictDefault : InboundContext → δ → Verdict} {documentedLeaf : δ → Bool}
    (rule : RuleTree δ) :
    ∀ {positive : Bool},
    (∀ sign leaf, (sign, leaf) ∈ rule.visited verdictDefault before positive →
      Verdict.Bounds sign (verdictDefault before leaf) (documentedLeaf leaf)) →
    Verdict.Bounds positive (rule.verdict verdictDefault before)
      (documentedTree documentedLeaf rule) := by
  induction rule using RuleTree.ind with
  | default rule =>
    intro positive leaves
    exact leaves positive rule (by simp [RuleTree.visited])
  | logical mode rules invert ih =>
    intro positive leaves
    rw [RuleTree.visited, InboundContext.resetRuleCache_of_fresh fresh] at leaves
    have each : ∀ rule ∈ upTo (fun rule => mode.ends (rule.verdict verdictDefault before)) rules,
        Verdict.Bounds (positive ^^ invert) (rule.verdict verdictDefault before)
          (documentedTree documentedLeaf rule) := by
      intro rule reached
      apply ih rule (mem_of_mem_upTo reached)
      intro sign leaf below
      exact leaves sign leaf (RuleTree.mem_visitedOf_iff.mpr ⟨rule, reached, below⟩)
    rw [RuleTree.verdict_logical, InboundContext.resetRuleCache_of_fresh fresh]
    cases mode with
    | and =>
      rw [documentedTree, documentedTrees_eq_map, List.all_map, LogicalType.join]
      exact bounds_negateIf (bounds_all each)
    | or =>
      rw [documentedTree, documentedTrees_eq_map, List.any_map, LogicalType.join]
      exact bounds_negateIf (bounds_any each)

/-- A headless rule in whose evaluation no default rule clashes where that matters. -/
def HeadlessSound (before after : InboundContext) (positive : Bool) (rule : HeadlessRule) : Prop :=
  ∀ sign leaf, (sign, leaf) ∈ rule.visited DefaultHeadlessRule.verdict before positive →
    leaf.matchItems before = true → (sign ^^ leaf.invert) = true → ¬Clash leaf before after

theorem headless_bounds {after : InboundContext} (phases : Phases before after)
    {rule : HeadlessRule} (queryOnly : ∀ leaf ∈ rule.leaves, QueryOnly leaf) {positive : Bool}
    (sound : HeadlessSound before after positive rule) :
    Verdict.Bounds positive (HeadlessRule.verdict before rule) (documentedHeadless after rule) := by
  refine tree_bounds phases.fresh rule fun sign leaf below => default_bounds ?_
  have noSets : leaf.ruleSetItem = none := by
    cases leaf.ruleSetItem with
    | none => rfl
    | some item => exact item.elim
  have leafGrown := grown phases (queryOnly leaf (RuleTree.mem_leaves_of_visited below))
  rw [documentedInner, noSets]
  exact inner_bounds_noSets leafGrown (sound sign leaf below)

/-! ## Rule-sets -/

/-- `Clash` for a rule and the set rule merged into it. -/
def MergedClash {σ : Type} (rule : AbstractDefaultRule σ) (branch : DefaultHeadlessRule)
    (before after : InboundContext) : Prop :=
  (hasDomain rule || hasDomain branch) = true ∧ (hasIP rule || hasIP branch) = true ∧
    (domainMatches rule before || domainMatches branch before) = false ∧
    branch.matchItems before = true ∧
    ((groupAnswers rule after).merge (groupAnswers branch after)).hold = true

/-- The rules of an independent set, which are evaluated when the groups of the rule that
refers to it are satisfied. -/
def NestedSound {σ : Type} (before after : InboundContext) (positive : Bool)
    (rule : AbstractDefaultRule σ) (ruleSet : RuleSet) : Prop :=
  (rule.required before).coveredBy (rule.satisfied before) = true →
    ∀ headless ∈ ruleSet.visitedRules before, HeadlessSound before after positive headless

/-- A referenced set with no clash where that matters. -/
def SetSound {σ : Type} (before after : InboundContext) (positive : Bool)
    (rule : AbstractDefaultRule σ) (ruleSet : RuleSet) : Prop :=
  match mergeableRuleIn ruleSet.rules with
  | some branch => positive = true → ¬MergedClash rule branch before after
  | none =>
    (positive = true → ruleSet.rules.any (documentedHeadless after) = true →
      ¬Clash rule before after) ∧ NestedSound before after positive rule ruleSet

section Sets
variable {σ : Type} {after : InboundContext} {rule : AbstractDefaultRule σ}

/-- A rule and its merged set wait for nothing that the matched groups do not already
answer. -/
theorem merged_settled (ruleGrown : Grown before after rule) {branch : DefaultHeadlessRule}
    (branchGrown : Grown before after branch)
    (covered : ((rule.required before).union (branch.required before)).coveredBy
      ((rule.satisfied before).union (branch.satisfied before)) = true)
    (ip : (hasIP rule || hasIP branch) = true)
    (ruleSettled : (rule.defersDestination before &&
      !((rule.satisfied before).union (branch.satisfied before)).destinationAddress) = false)
    (branchSettled : (branch.defersDestination before &&
      !((rule.satisfied before).union (branch.satisfied before)).destinationAddress) = false) :
    ((rule.satisfied before).union (branch.satisfied before)).destinationAddress = true := by
  by_contra missed
  rw [Bool.not_eq_true] at missed
  rw [missed, Bool.not_false, Bool.and_true] at ruleSettled branchSettled
  rw [ruleGrown.defers] at ruleSettled
  rw [branchGrown.defers] at branchSettled
  have domain : ((rule.required before).union (branch.required before)).destinationAddress =
      true := by
    simp only [union, ruleGrown.required, branchGrown.required]
    revert ip ruleSettled branchSettled
    cases hasIP rule <;> cases hasIP branch <;> cases hasDomain rule <;>
      cases hasDomain branch <;> simp
  rw [satisfied_of_covered covered domain] at missed
  cases missed

variable {positive : Bool}

/-- A merged set: its groups and those of the rule grow together. -/
theorem mergedSet_bounds (ruleGrown : Grown before after rule) {branch : DefaultHeadlessRule}
    (branchGrown : Grown before after branch) {ruleSet : RuleSet}
    (merged : mergeableRuleIn ruleSet.rules = some branch)
    (clashFree : positive = true → ¬MergedClash rule branch before after) :
    SetBounds positive (rule.defersDestination before)
      (setOutcome (rule.required before) (rule.satisfied before) before ruleSet)
      (documentedSet after (groupAnswers rule after) ruleSet) := by
  unfold setOutcome documentedSet
  rw [merged]
  simp only [hold_eq_covered, asked_merge, met_merge,
    ruleGrown.asked, ruleGrown.met, branchGrown.asked, branchGrown.met, union_addressFlag,
    branchGrown.items]
  cases items : branch.matchItems after with
  | false => cases positive <;> simp [SetBounds]
  | true =>
    simp only [Bool.true_and]
    by_cases covered : ((rule.required before).union (branch.required before)).coveredBy
        ((rule.satisfied before).union (branch.satisfied before)) = true
    · rw [if_pos covered]
      cases positive with
      | true =>
        rw [SetBounds, if_pos rfl]
        split <;> simp
      | false =>
        rw [SetBounds, if_neg (by simp)]
        intro cleared settled waits
        split at settled
        · cases settled
        · rename_i branchSettled
          cases settled
          exact grown_covered covered fun ip =>
            merged_settled ruleGrown branchGrown covered ip waits (by simpa using branchSettled)
    · rw [if_neg covered]
      cases positive with
      | true =>
        rw [SetBounds, if_pos rfl]
        intro _
        rw [← Bool.not_eq_true]
        intro holds
        refine covered (covered_of_grown (fun matched => ?_) (fun domain ip => ?_) holds)
        · rw [Bool.or_eq_true] at matched ⊢
          exact matched.imp matchAnyIPItem_hasIP matchAnyIPItem_hasIP
        by_contra missed
        refine clashFree rfl ⟨?_, ip, ?_, branchGrown.items.trans items, ?_⟩
        · simpa [union, ruleGrown.required, branchGrown.required] using domain
        · simpa [union, ruleGrown.satisfied, branchGrown.satisfied] using missed
        · rw [hold_eq_covered, asked_merge, met_merge, ruleGrown.asked, ruleGrown.met,
            branchGrown.asked, branchGrown.met, union_addressFlag, union_addressFlag]
          exact holds
      | false => simp [SetBounds]

/-- An independent set: it counts when the groups of the rule are satisfied. -/
theorem independentSet_bounds (phases : Phases before after) (ruleGrown : Grown before after rule)
    {ruleSet : RuleSet} (independent : mergeableRuleIn ruleSet.rules = none)
    (queryOnly : ∀ leaf ∈ RuleTree.leavesOf ruleSet.rules, QueryOnly leaf)
    (clashFree : positive = true → ruleSet.rules.any (documentedHeadless after) = true →
      ¬Clash rule before after)
    (sound : NestedSound before after positive rule ruleSet) :
    SetBounds positive (rule.defersDestination before)
      (setOutcome (rule.required before) (rule.satisfied before) before ruleSet)
      (documentedSet after (groupAnswers rule after) ruleSet) := by
  have answer (covered : (rule.required before).coveredBy (rule.satisfied before) = true) :
      Verdict.Bounds positive (ruleSet.verdict before)
        (ruleSet.rules.any (documentedHeadless after)) :=
    bounds_any fun headless reached =>
      headless_bounds phases
        (fun leaf below => queryOnly leaf (RuleTree.mem_leavesOf (mem_of_mem_upTo reached) below))
        (sound covered headless reached)
  unfold setOutcome documentedSet
  rw [independent]
  simp only
  by_cases covered : (rule.required before).coveredBy (rule.satisfied before) = true
  · rw [if_pos covered]
    replace answer := answer covered
    cases positive with
    | true =>
      rw [bounds_true] at answer
      cases verdict : ruleSet.verdict before with
      | no => simp [SetBounds, answer verdict]
      | maybe | yes => simp [SetBounds, SetOutcome.ofVerdict]
    | false =>
      rw [bounds_false] at answer
      cases verdict : ruleSet.verdict before with
      | no | maybe => simp [SetBounds, SetOutcome.ofVerdict]
      | yes =>
        cases settled : rule.defersDestination before with
        | true => simp [SetBounds, SetOutcome.ofVerdict]
        | false => simp [SetBounds, answer verdict, hold_of_settled ruleGrown covered settled]
  · rw [if_neg covered]
    cases positive with
    | true =>
      rw [SetBounds, if_pos rfl]
      intro _
      rw [← Bool.not_eq_true, Bool.and_eq_true]
      rintro ⟨hold, matched⟩
      exact covered (covered_of_hold ruleGrown (clashFree rfl matched) hold)
    | false => simp [SetBounds]

theorem setsOutcome_bounds (phases : Phases before after) (ruleGrown : Grown before after rule)
    (sets : List RuleSet)
    (queryOnly : ∀ ruleSet ∈ sets, ∀ leaf ∈ RuleTree.leavesOf ruleSet.rules, QueryOnly leaf)
    (sound : ∀ ruleSet ∈ visitedSets (rule.required before) (rule.satisfied before) before sets,
      SetSound before after positive rule ruleSet) :
    SetBounds positive (rule.defersDestination before)
      (setsOutcome (rule.required before) (rule.satisfied before) before sets)
      (sets.any (documentedSet after (groupAnswers rule after))) := by
  induction sets with
  | nil => cases positive <;> simp [SetBounds, setsOutcome]
  | cons ruleSet rest ih =>
    obtain ⟨first, later⟩ := forall_upTo_cons.mp sound
    have leaves := queryOnly ruleSet (by simp)
    refine setBounds_or ?_ fun goesOn =>
      ih (fun later member => queryOnly later (by simp [member])) (later goesOn)
    unfold SetSound at first
    cases merged : mergeableRuleIn ruleSet.rules with
    | some branch =>
      rw [merged] at first
      exact mergedSet_bounds ruleGrown
        (grown phases (leaves branch (mem_leavesOf_of_mergeable merged))) merged first
    | none =>
      rw [merged] at first
      exact independentSet_bounds phases ruleGrown merged leaves first.1 first.2

end Sets

end AmneziaBox.Guarantees.TwoPhase
