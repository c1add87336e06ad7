import AmneziaBox.Source.Rule.GroupFlags
import AmneziaBox.Source.Rule.RuleSetItem

/-!
# What one evaluation of a rule says

`Match` answers with a Boolean and leaves a mask of deferred groups: together a
three-valued verdict. The functions here compute that verdict directly, with no
state; `Settles` ties each of them to the function of the source it describes.
Every statement also says that nothing but the deferred groups is written, and
that nothing is deferred unless destination IP items are being ignored.
-/
namespace AmneziaBox.Source.Rule
open Adapter Library InboundContext GroupFlags Verdict

/-- `matcher` answers `metadata` with `verdict`: `no` is false, `yes` is true with
nothing deferred, `maybe` is true with the destination address group deferred. -/
def Settles (matcher : Matcher) (metadata : InboundContext) (verdict : Verdict) : Prop :=
  ∃ waiting, matcher metadata = (decide (verdict ≠ .no), metadata.withDeferred (deferMask waiting)) ∧
    (verdict = .yes → waiting = false) ∧ (verdict = .maybe → waiting = true) ∧
    (metadata.ignoreDestinationIPCIDRMatch = false → waiting = false)

variable {metadata : InboundContext}

section
variable {matcher : Matcher} {verdict : Verdict} (settles : Settles matcher metadata verdict)
include settles

theorem Settles.fst :
    (matcher metadata).1 = decide (verdict ≠ .no) := by
  obtain ⟨waiting, result, -⟩ := settles
  rw [result]

theorem Settles.ne_maybe (unignored : metadata.ignoreDestinationIPCIDRMatch = false) :
    verdict ≠ .maybe := by
  obtain ⟨waiting, -, -, maybe, quiet⟩ := settles
  intro isMaybe
  rw [quiet unignored] at maybe
  cases maybe isMaybe

end

/-! ## The loops -/

/-- What the two resets of the rule cache have in common. -/
structure CacheReset (reset : InboundContext → InboundContext) : Prop where
  again : ∀ metadata groups, reset ((reset metadata).withDeferred groups) = reset metadata
  cache : ∀ metadata, (reset metadata).resetRuleCache = metadata.resetRuleCache

section
variable {other : InboundContext} (same : other.resetRuleCache = metadata.resetRuleCache)
include same

/-- Metadata that differ in the cache only are told apart by nothing after the
snapshot of one of them is restored. -/
theorem restore_of_resetRuleCache_eq :
    (snapshotRuleMatch metadata).restore other = metadata := by
  cases metadata
  cases other
  simp only [InboundContext.resetRuleCache, InboundContext.mk.injEq] at same
  simp only [RuleMatchSnapshot.restore, snapshotRuleMatch, InboundContext.mk.injEq]
  simp [same.1, same.2.2.2.2]

theorem restoreWithDeferred_eq (matched : Bool) (deferredGroups : BitVec 8) :
    restoreWithDeferred (snapshotRuleMatch metadata) matched deferredGroups other =
      if matched then
        metadata.withDeferred (metadata.deferredIPCIDRMatchGroups ||| deferredGroups)
      else metadata := by
  rw [restoreWithDeferred, restore_of_resetRuleCache_eq same]

end

section Loops
variable {α : Type} (rule : α → Matcher) (verdict : α → Verdict)

theorem matchAllRules_spec (base : InboundContext) (rules : List α) (pending : Bool)
    (metadata : InboundContext) (start : metadata.resetRuleCache = base)
    (settles : ∀ x ∈ rules, Settles (rule x) base (verdict x)) :
    ∃ pending' metadata',
      matchAllRules (rules.map rule) (deferMask pending) metadata =
        (decide (Verdict.all verdict rules ≠ .no), deferMask pending', metadata') ∧
      metadata'.resetRuleCache = base ∧
      (Verdict.all verdict rules = .yes → pending' = pending) ∧
      (Verdict.all verdict rules = .maybe → pending' = true) ∧
      (base.ignoreDestinationIPCIDRMatch = false → pending = false → pending' = false) := by
  induction rules generalizing pending metadata with
  | nil => exact ⟨pending, metadata, rfl, start, by simp, by simp [all], by simp⟩
  | cons x rest ih =>
    obtain ⟨waiting, result, yes, maybe, quiet⟩ := settles x (by simp)
    have next : (base.withDeferred (deferMask waiting)).resetRuleCache = base := by
      subst start
      rfl
    obtain ⟨pending', metadata', loop, same, allYes, allMaybe, allQuiet⟩ :=
      ih (pending || waiting) _ next fun y member => settles y (by simp [member])
    rw [List.map_cons, matchAllRules, start, result]
    by_cases missed : verdict x = .no
    · have allNo : all verdict (x :: rest) = .no := and_eq_no.mpr (.inl missed)
      exact ⟨false, _, by simp [missed, allNo], next, by simp [allNo], by simp [allNo], by simp⟩
    · refine ⟨pending', metadata', ?_, same, ?_, ?_, ?_⟩
      · have accumulated : deferMask pending ||| deferMask waiting = deferMask (pending || waiting) :=
          deferMask_or pending waiting
        simp [missed, all, and_eq_no, accumulated] at loop ⊢
        exact loop
      · intro allX
        obtain ⟨isYes, restYes⟩ := and_eq_yes.mp allX
        rw [allYes restYes, yes isYes, Bool.or_false]
      · intro allX
        rcases and_eq_maybe.mp allX with ⟨isMaybe, restNe⟩ | ⟨-, restMaybe⟩
        · cases hrest : all verdict rest with
          | no => exact absurd hrest restNe
          | maybe => exact allMaybe hrest
          | yes => rw [allYes hrest, maybe isMaybe, Bool.or_true]
        · exact allMaybe restMaybe
      · intro unignored none
        exact allQuiet unignored (by rw [none, quiet unignored]; rfl)

theorem matchAnyRule_spec {reset : InboundContext → InboundContext} (isReset : CacheReset reset)
    (base : InboundContext) (rules : List α) (pending : Bool)
    (metadata : InboundContext) (start : reset metadata = base)
    (settles : ∀ x ∈ rules, Settles (rule x) base (verdict x)) :
    ∃ pending' metadata',
      matchAnyRule reset (rules.map rule) pending (deferMask pending) metadata =
        (pending || decide (Verdict.any verdict rules ≠ .no), deferMask pending', metadata') ∧
      metadata'.resetRuleCache = metadata.resetRuleCache ∧
      (Verdict.any verdict rules = .no → pending' = pending) ∧
      (Verdict.any verdict rules = .yes → pending' = false) ∧
      (Verdict.any verdict rules = .maybe → pending' = true) ∧
      (base.ignoreDestinationIPCIDRMatch = false → pending = false → pending' = false) := by
  induction rules generalizing pending metadata with
  | nil =>
    exact ⟨pending, metadata, by simp [matchAnyRule, Verdict.any], rfl, fun _ => rfl,
      by simp [Verdict.any], by simp [Verdict.any], fun _ none => none⟩
  | cons x rest ih =>
    obtain ⟨waiting, result, yes, maybe, quiet⟩ := settles x (by simp)
    have again : reset (base.withDeferred (deferMask waiting)) = base := by
      rw [← start]
      exact isReset.again metadata _
    have cache : (base.withDeferred (deferMask waiting)).resetRuleCache =
        metadata.resetRuleCache := by
      rw [← start]
      exact isReset.cache metadata
    have recurse := fun pending =>
      ih pending _ again fun y member => settles y (by simp [member])
    rw [List.map_cons, matchAnyRule, start, result]
    cases hx : verdict x with
    | no =>
      obtain ⟨pending', metadata', loop, same, anyNo, anyYes, anyMaybe, anyQuiet⟩ := recurse pending
      have skip : Verdict.any verdict (x :: rest) = Verdict.any verdict rest := by
        rw [Verdict.any, hx, Verdict.no_or]
      rw [skip]
      exact ⟨pending', metadata', by simpa using loop, same.trans cache, anyNo, anyYes, anyMaybe,
        anyQuiet⟩
    | maybe =>
      obtain ⟨pending', metadata', loop, same, anyNo, anyYes, anyMaybe, anyQuiet⟩ := recurse true
      have isWaiting : waiting = true := maybe hx
      have accumulated : deferMask pending ||| deferMask true = deferMask true := by
        rw [deferMask_or, Bool.or_true]
      have anyX : Verdict.any verdict (x :: rest) = Verdict.or .maybe (Verdict.any verdict rest) := by
        rw [Verdict.any, hx]
      rw [anyX]
      refine ⟨pending', metadata', ?_, same.trans cache, ?_, ?_, ?_, ?_⟩
      · subst isWaiting
        simp only [InboundContext.withDeferred, accumulated] at loop ⊢
        simpa [Verdict.or_eq_no] using loop
      · simp [Verdict.or_eq_no]
      · simpa [Verdict.or_eq_yes] using anyYes
      · intro isMaybe
        cases hrest : Verdict.any verdict rest with
        | no => exact anyNo hrest
        | maybe => exact anyMaybe hrest
        | yes => simp [hrest, Verdict.or] at isMaybe
      · intro unignored
        exact absurd (quiet unignored) (by simp [isWaiting])
    | yes =>
      have anyX : Verdict.any verdict (x :: rest) = .yes := by
        rw [Verdict.any, hx, Verdict.yes_or]
      rw [anyX]
      exact ⟨false, _, by simp [yes hx], cache, by simp, by simp,
        by simp, by simp⟩

end Loops

/-- A loop that ended with the answer `joined`, and what follows it. -/
theorem concludeRules_settles {metadata' : InboundContext} {joined : Verdict} {pending : Bool}
    (invert : Bool) (clean : metadata.deferredIPCIDRMatchGroups = 0)
    (same : metadata'.resetRuleCache = metadata.resetRuleCache)
    (yes : joined = .yes → pending = false) (maybe : joined = .maybe → pending = true)
    (quiet : metadata.ignoreDestinationIPCIDRMatch = false → pending = false) :
    ∃ waiting,
      concludeRules (snapshotRuleMatch metadata) invert
          (decide (joined ≠ .no), deferMask pending, metadata') =
        (decide (joined.negateIf invert ≠ .no), metadata.withDeferred (deferMask waiting)) ∧
      (joined.negateIf invert = .yes → waiting = false) ∧
      (joined.negateIf invert = .maybe → waiting = true) ∧
      (metadata.ignoreDestinationIPCIDRMatch = false → waiting = false) := by
  have untouched : metadata.withDeferred 0#8 = metadata :=
    InboundContext.withDeferred_of_clean clean
  rw [concludeRules, restoreWithDeferred_eq same, clean]
  cases joined with
  | no => exact ⟨false, by cases invert <;> simp [Verdict.negateIf, Verdict.not, untouched],
      by simp, by cases invert <;> simp [Verdict.negateIf, Verdict.not], by simp⟩
  | maybe =>
    have isPending : pending = true := maybe rfl
    subst isPending
    exact ⟨true, by cases invert <;> simp [Verdict.negateIf, Verdict.not],
      by cases invert <;> simp [Verdict.negateIf, Verdict.not], by simp, quiet⟩
  | yes =>
    have settled : pending = false := yes rfl
    subst settled
    exact ⟨false, by cases invert <;> simp [Verdict.negateIf, Verdict.not], by simp,
      by cases invert <;> simp [Verdict.negateIf, Verdict.not], by simp⟩

/-- How a logical rule joins the verdicts of its sub-rules. -/
def LogicalType.join {α : Type} (mode : LogicalType) (verdict : α → Verdict) (rules : List α) :
    Verdict :=
  match mode with
  | .and => Verdict.all verdict rules
  | .or => Verdict.any verdict rules

/-- The verdicts after which the loop of a logical rule looks at no further sub-rule. -/
def LogicalType.ends (mode : LogicalType) (verdict : Verdict) : Bool :=
  match mode with
  | .and => verdict = .no
  | .or => verdict = .yes

theorem LogicalType.join_congr {α : Type} (mode : LogicalType) {verdict other : α → Verdict}
    {rules : List α}
    (same : ∀ rule ∈ upTo (fun rule => mode.ends (verdict rule)) rules, verdict rule = other rule) :
    mode.join verdict rules = mode.join other rules := by
  cases mode with
  | and => exact all_congr same
  | or => exact any_congr same

theorem LogicalType.join_map {α : Type} (mode : LogicalType) (verdict : α → Verdict)
    (rules : List α) : mode.join id (rules.map verdict) = mode.join verdict rules := by
  cases mode with
  | and =>
    induction rules with
    | nil => rfl
    | cons rule rest ih => exact congrArg (Verdict.and (verdict rule)) ih
  | or =>
    induction rules with
    | nil => rfl
    | cons rule rest ih => exact congrArg (Verdict.or (verdict rule)) ih

section Trees
variable {α : Type} {rule : α → Matcher} {verdict : α → Verdict}

theorem logicalMatch_settles (mode : LogicalType) (rules : List α) (invert : Bool)
    (clean : metadata.deferredIPCIDRMatchGroups = 0)
    (settles : ∀ x ∈ rules, Settles (rule x) metadata.resetRuleCache (verdict x)) :
    Settles (logicalMatch mode (rules.map rule) invert) metadata
      ((mode.join verdict rules).negateIf invert) := by
  unfold Settles logicalMatch
  cases mode with
  | and =>
    obtain ⟨pending, metadata', result, same, yes, maybe, quiet⟩ :=
      matchAllRules_spec rule verdict _ rules false metadata rfl settles
    change matchAllRules _ 0 _ = _ at result
    simp only [result]
    exact concludeRules_settles invert clean same yes maybe fun unignored => quiet unignored rfl
  | or =>
    obtain ⟨pending, metadata', result, same, -, yes, maybe, quiet⟩ :=
      matchAnyRule_spec rule verdict
        (show CacheReset InboundContext.resetRuleCache from ⟨fun _ _ => rfl, fun _ => rfl⟩) _ rules
        false metadata rfl settles
    change matchAnyRule _ _ _ 0 _ = _ at result
    simp only [result, Bool.false_or]
    exact concludeRules_settles invert clean same yes maybe fun unignored => quiet unignored rfl

theorem matchAnyHeadlessRule_settles (rules : List α)
    (clean : metadata.deferredIPCIDRMatchGroups = 0)
    (settles : ∀ x ∈ rules, Settles (rule x) metadata (verdict x)) :
    Settles (matchAnyHeadlessRule (rules.map rule)) metadata (Verdict.any verdict rules) := by
  obtain ⟨pending, metadata', result, same, -, yes, maybe, quiet⟩ :=
    matchAnyRule_spec rule verdict
      (show CacheReset InboundContext.resetRuleMatchCache from ⟨fun _ _ => rfl, fun _ => rfl⟩)
      metadata rules false metadata (withDeferred_of_clean clean) settles
  change matchAnyRule _ _ _ 0 _ = _ at result
  rw [Settles, matchAnyHeadlessRule, result, Bool.false_or]
  exact concludeRules_settles false clean same yes maybe fun unignored => quiet unignored rfl

end Trees

/-! ## Default rules -/

/-- How the rule-sets of a rule answer: none matches, some match and all of those
wait for the response, or one matches for good with these groups satisfied. -/
inductive SetOutcome where
  | missed
  | deferred
  | settled (cleared : GroupFlags)
  deriving DecidableEq

namespace SetOutcome

/-- What `matchWithOuterGroups` returns and leaves behind. -/
def result (metadata : InboundContext) : SetOutcome → Bool × InboundContext
  | missed => (false, metadata)
  | deferred =>
    (true, metadata.withDeferred (metadata.deferredIPCIDRMatchGroups ||| deferMask true))
  | settled cleared =>
    (true, metadata.withDeferred (metadata.deferredIPCIDRMatchGroups &&& ~~~cleared.bits))

/-- The first set that settles wins; a deferred set is kept meanwhile. -/
def or : SetOutcome → SetOutcome → SetOutcome
  | settled cleared, _ => settled cleared
  | missed, other => other
  | deferred, settled cleared => settled cleared
  | deferred, _ => deferred

def ofVerdict : Verdict → SetOutcome
  | .no => missed
  | .maybe => deferred
  | .yes => settled ⟨false, false, false, false⟩

/-- The outcome after which no further set is looked at. -/
def isSettled : SetOutcome → Bool
  | settled _ => true
  | missed | deferred => false

theorem result_settled_none (metadata : InboundContext) :
    (settled ⟨false, false, false, false⟩).result metadata = (true, metadata) := by
  have nothing : ~~~bits ⟨false, false, false, false⟩ = BitVec.allOnes 8 := by decide
  rw [result, nothing, BitVec.and_allOnes]
  rfl

end SetOutcome

namespace AbstractDefaultRule
variable {σ : Type}

/-- The verdict of `matchInner` when the rule-set item, if any, answers with `sets`. -/
def innerVerdict (rule : AbstractDefaultRule σ) (metadata : InboundContext)
    (sets : Option SetOutcome) : Verdict :=
  if rule.matchItems metadata then
    match sets with
    | none =>
      if (rule.required metadata).coveredBy (rule.satisfied metadata) then
        if rule.defersDestination metadata then .maybe else .yes
      else .no
    | some .missed => .no
    | some .deferred =>
      -- the outer rule's own match clears what its rule-sets deferred
      if (rule.satisfied metadata).destinationAddress then .yes else .maybe
    | some (.settled cleared) =>
      if rule.defersDestination metadata && !cleared.destinationAddress then .maybe else .yes
  else .no

/-- The verdict of a default rule; `outcome` is the one of its rule-set item. -/
def verdict (outcome : σ → GroupFlags → GroupFlags → InboundContext → SetOutcome)
    (metadata : InboundContext) (rule : AbstractDefaultRule σ) : Verdict :=
  if rule.hasNoItems then .yes
  else
    (rule.innerVerdict metadata (rule.ruleSetItem.map fun item =>
      outcome item (rule.required metadata) (rule.satisfied metadata) metadata)).negateIf rule.invert

/-- A rule that waits for the response has no domain item that could have matched. -/
theorem satisfied_of_defers {rule : AbstractDefaultRule σ}
    (defers : rule.defersDestination metadata = true) :
    (rule.satisfied metadata).destinationAddress = false := by
  simp only [defersDestination, Bool.and_eq_true, Bool.not_eq_true', List.isEmpty_iff] at defers
  obtain ⟨⟨⟨ignored, -⟩, -⟩, noDomain⟩ := defers
  simp [satisfied, noDomain, matchAnyItem, destinationIPCIDRMatchesDestination, ignored]

theorem defers_of_unignored {rule : AbstractDefaultRule σ}
    (unignored : metadata.ignoreDestinationIPCIDRMatch = false) :
    rule.defersDestination metadata = false := by
  simp [defersDestination, unignored]

/-- The metadata after `evaluateGroups`, from a clean cache. -/
theorem evaluateGroups_clean (rule : AbstractDefaultRule σ)
    (clean : metadata.deferredIPCIDRMatchGroups = 0) :
    rule.evaluateGroups metadata =
      (⟨(rule.required metadata).bits, (rule.satisfied metadata).bits⟩,
        metadata.withDeferred (deferMask (rule.defersDestination metadata))) := by
  rw [evaluateGroups_eq]
  cases rule.defersDestination metadata with
  | false => simp [InboundContext.withDeferred_of_clean clean]
  | true => simp [clean, deferMask]

/-- `matchItems` reads nothing that the evaluator writes. -/
@[simp] theorem matchItems_withDeferred (rule : AbstractDefaultRule σ) (metadata : InboundContext)
    (groups : BitVec 8) :
    rule.matchItems (metadata.withDeferred groups) = rule.matchItems metadata := rfl

theorem evaluateForMerge_clean (rule : AbstractDefaultRule σ)
    (clean : metadata.deferredIPCIDRMatchGroups = 0) :
    rule.evaluateForMerge metadata =
      (if rule.matchItems metadata then
          some ⟨(rule.required metadata).bits, (rule.satisfied metadata).bits⟩
        else none,
        metadata.withDeferred (deferMask (rule.defersDestination metadata))) := by
  rw [evaluateForMerge, evaluateGroups_clean rule clean]
  by_cases matched : rule.matchItems metadata = true <;> simp [matched]

section Match
variable {matchWithOuterGroups : σ → RuleGroupMatch → Matcher}
  {outcome : σ → GroupFlags → GroupFlags → InboundContext → SetOutcome}

/-- The rule-set item of the rule answers as `outcome` says, whatever is deferred
around it, and defers nothing of its own unless destination IP items are ignored. -/
structure Answers (matchWithOuterGroups : σ → RuleGroupMatch → Matcher)
    (outcome : σ → GroupFlags → GroupFlags → InboundContext → SetOutcome) : Prop where
  result : ∀ item required satisfied metadata groups,
    matchWithOuterGroups item ⟨required.bits, satisfied.bits⟩ (metadata.withDeferred groups) =
      (outcome item required satisfied metadata).result (metadata.withDeferred groups)
  quiet : ∀ item required satisfied metadata,
    metadata.ignoreDestinationIPCIDRMatch = false →
      outcome item required satisfied metadata ≠ .deferred

section
variable {metadata : InboundContext} (answers : Answers matchWithOuterGroups outcome)
include answers

theorem matchInner_settles (rule : AbstractDefaultRule σ)
    (clean : metadata.deferredIPCIDRMatchGroups = 0) :
    Settles (rule.matchInner matchWithOuterGroups) metadata
      (rule.innerVerdict metadata (rule.ruleSetItem.map fun item =>
        outcome item (rule.required metadata) (rule.satisfied metadata) metadata)) := by
  have domain : rule.defersDestination metadata = true →
      (rule.satisfied metadata).destinationAddress = false := satisfied_of_defers
  have unignored : metadata.ignoreDestinationIPCIDRMatch = false →
      rule.defersDestination metadata = false := defers_of_unignored
  have waits : (rule.defersDestination metadata &&
      !(rule.satisfied metadata).destinationAddress) = rule.defersDestination metadata := by
    cases defers : rule.defersDestination metadata with
    | false => rfl
    | true => rw [domain defers]; rfl
  have answered (waiting : Bool) :
      decide ((if waiting = true then maybe else .yes) ≠ .no) = true := by
    cases waiting <;> rfl
  unfold Settles matchInner innerVerdict
  rw [evaluateGroups_clean rule clean]
  simp only [matchItems_withDeferred]
  cases rule.matchItems metadata with
  | false => exact ⟨rule.defersDestination metadata, by simp, by simp, by simp, unignored⟩
  | true =>
    cases rule.ruleSetItem with
    | none =>
      simp only [done_bits, Option.map_none]
      cases (rule.required metadata).coveredBy (rule.satisfied metadata) with
      | false => exact ⟨rule.defersDestination metadata, by simp, by simp, by simp, unignored⟩
      | true =>
        refine ⟨rule.defersDestination metadata, ?_, by simp, by simp, unignored⟩
        simp [deferMask_clear, waits, answered]
    | some item =>
      have quiet := answers.quiet item (rule.required metadata) (rule.satisfied metadata) metadata
      simp only [answers.result, Option.map_some]
      cases sets : outcome item (rule.required metadata) (rule.satisfied metadata) metadata with
      | missed =>
        exact ⟨rule.defersDestination metadata, by simp [SetOutcome.result], by simp, by simp,
          unignored⟩
      | deferred =>
        refine ⟨!(rule.satisfied metadata).destinationAddress, ?_, by simp, by simp,
          fun heard => absurd sets (quiet heard)⟩
        simp only [SetOutcome.result, withDeferred_deferred, withDeferred_withDeferred,
          deferMask_or, deferMask_clear, Bool.or_true, Bool.true_and]
        cases (rule.satisfied metadata).destinationAddress <;> simp
      | settled cleared =>
        refine ⟨rule.defersDestination metadata && !cleared.destinationAddress, ?_, by simp,
          by simp, fun heard => by simp [unignored heard]⟩
        simp only [SetOutcome.result, withDeferred_deferred, withDeferred_withDeferred,
          deferMask_clear]
        rw [Bool.and_right_comm, waits]
        simp only [if_true, answered]

/-- `abstractDefaultRule.Match` answers with the verdict of the rule. -/
theorem matchOn_settles (rule : AbstractDefaultRule σ)
    (clean : metadata.deferredIPCIDRMatchGroups = 0) :
    Settles (rule.matchOn matchWithOuterGroups) metadata (rule.verdict outcome metadata) := by
  obtain ⟨waiting, result, yes, maybe, quiet⟩ := matchInner_settles answers rule clean
  have untouched : metadata.withDeferred 0#8 = metadata :=
    InboundContext.withDeferred_of_clean clean
  unfold Settles matchOn verdict
  cases rule.hasNoItems with
  | true => exact ⟨false, by simp [untouched], by simp, by simp, by simp⟩
  | false =>
    simp only [result, Bool.false_eq_true, if_false]
    cases rule.invert with
    | false => exact ⟨waiting, rfl, yes, maybe, quiet⟩
    | true =>
      cases inner : rule.innerVerdict metadata (rule.ruleSetItem.map fun item =>
          outcome item (rule.required metadata) (rule.satisfied metadata) metadata) with
      | no => exact ⟨false, by simp [Verdict.negateIf, Verdict.not], by simp,
          by simp [Verdict.negateIf, Verdict.not], by simp⟩
      | maybe =>
        have isWaiting : waiting = true := maybe inner
        subst isWaiting
        exact ⟨true, by simp [Verdict.negateIf, Verdict.not],
          by simp [Verdict.negateIf, Verdict.not], by simp, quiet⟩
      | yes =>
        have settled : waiting = false := yes inner
        subst settled
        exact ⟨false, by simp [Verdict.negateIf, Verdict.not], by simp,
          by simp [Verdict.negateIf, Verdict.not], by simp⟩

end

end Match
end AbstractDefaultRule

/-! ## Rule trees -/

namespace RuleTree
variable {δ : Type}

mutual
/-- The verdict of a rule. The sub-rules of a logical rule find a reset cache. -/
def verdict (verdictDefault : InboundContext → δ → Verdict) (metadata : InboundContext) :
    RuleTree δ → Verdict
  | .default rule => verdictDefault metadata rule
  | .logical mode rules invert =>
    (mode.join id (verdicts verdictDefault metadata rules)).negateIf invert

/-- The verdicts of sub-rules, each on the reset cache. -/
def verdicts (verdictDefault : InboundContext → δ → Verdict) (metadata : InboundContext) :
    List (RuleTree δ) → List Verdict
  | [] => []
  | rule :: rest =>
    verdict verdictDefault metadata.resetRuleCache rule :: verdicts verdictDefault metadata rest
end

theorem verdict_logical (verdictDefault : InboundContext → δ → Verdict)
    (metadata : InboundContext) (mode : LogicalType) (rules : List (RuleTree δ)) (invert : Bool) :
    verdict verdictDefault metadata (.logical mode rules invert) =
      (mode.join (verdict verdictDefault metadata.resetRuleCache) rules).negateIf invert := by
  have each : verdicts verdictDefault metadata rules =
      rules.map (verdict verdictDefault metadata.resetRuleCache) := by
    induction rules with
    | nil => rfl
    | cons rule rest ih => rw [verdicts, ih, List.map_cons]
  rw [verdict, each, LogicalType.join_map]

mutual
/-- The default rules that an evaluation comes to, each with the sign under which its
answer enters: an inverted logical rule turns the sign of everything below it. -/
def visited (verdictDefault : InboundContext → δ → Verdict) (metadata : InboundContext)
    (positive : Bool) : RuleTree δ → List (Bool × δ)
  | .default rule => [(positive, rule)]
  | .logical mode rules invert =>
    visitedOf verdictDefault metadata.resetRuleCache mode (positive ^^ invert) rules

def visitedOf (verdictDefault : InboundContext → δ → Verdict) (metadata : InboundContext)
    (mode : LogicalType) (positive : Bool) : List (RuleTree δ) → List (Bool × δ)
  | [] => []
  | rule :: rest =>
    visited verdictDefault metadata positive rule ++
      if mode.ends (rule.verdict verdictDefault metadata) then []
      else visitedOf verdictDefault metadata mode positive rest
end

section Visited
variable {verdictDefault : InboundContext → δ → Verdict}

theorem mem_visitedOf_iff {mode : LogicalType} {positive : Bool} {signed : Bool × δ}
    {rules : List (RuleTree δ)} :
    signed ∈ visitedOf verdictDefault metadata mode positive rules ↔
      ∃ rule ∈ upTo (fun rule => mode.ends (rule.verdict verdictDefault metadata)) rules,
        signed ∈ rule.visited verdictDefault metadata positive := by
  induction rules with
  | nil => simp [visitedOf, upTo]
  | cons first rest ih =>
    rw [visitedOf, upTo]
    cases mode.ends (first.verdict verdictDefault metadata) <;> simp [ih]

theorem mem_leaves_of_visited {rule : RuleTree δ} :
    ∀ {metadata : InboundContext} {positive sign : Bool} {leaf : δ},
      (sign, leaf) ∈ rule.visited verdictDefault metadata positive → leaf ∈ rule.leaves := by
  induction rule using ind with
  | default rule =>
    intro metadata positive sign leaf below
    simp only [visited, List.mem_singleton, Prod.mk.injEq] at below
    simp [leaves, below.2]
  | logical mode rules invert ih =>
    intro metadata positive sign leaf below
    rw [visited, mem_visitedOf_iff] at below
    obtain ⟨rule, reached, inside⟩ := below
    have member := mem_of_mem_upTo reached
    exact mem_leaves_logical member (ih rule member inside)

/-- The verdict of a tree depends on the default rules that its evaluation comes to. -/
theorem verdict_map {ε : Type} {f : δ → ε} {verdictImage : InboundContext → ε → Verdict}
    (fresh : metadata.Fresh) (rule : RuleTree δ) :
    ∀ positive : Bool,
    (∀ sign leaf, (sign, leaf) ∈ rule.visited verdictDefault metadata positive →
      verdictDefault metadata leaf = verdictImage metadata (f leaf)) →
    rule.verdict verdictDefault metadata = (rule.map f).verdict verdictImage metadata := by
  induction rule using ind with
  | default rule =>
    intro positive same
    exact same positive rule (by simp [visited])
  | logical mode rules invert ih =>
    intro positive same
    rw [visited, resetRuleCache_of_fresh fresh] at same
    rw [map, mapList_eq_map, verdict_logical, verdict_logical, resetRuleCache_of_fresh fresh]
    congr 1
    rw [← LogicalType.join_map mode _ (List.map _ rules), List.map_map, LogicalType.join_map]
    refine LogicalType.join_congr mode fun rule reached => ?_
    refine ih rule (mem_of_mem_upTo reached) (positive ^^ invert) fun sign leaf below => ?_
    exact same sign leaf (mem_visitedOf_iff.mpr ⟨rule, reached, below⟩)

end Visited

theorem matchOn_settles {matchDefault : δ → Matcher} {verdictDefault : InboundContext → δ → Verdict}
    (settles : ∀ rule metadata, metadata.deferredIPCIDRMatchGroups = 0 →
      Settles (matchDefault rule) metadata (verdictDefault metadata rule))
    (rule : RuleTree δ) : ∀ metadata, metadata.deferredIPCIDRMatchGroups = 0 →
      Settles (matchOn matchDefault rule) metadata (rule.verdict verdictDefault metadata) := by
  induction rule using ind with
  | default rule => exact settles rule
  | logical mode rules invert ih =>
    intro metadata clean
    rw [verdict_logical, matchOn, matchers_eq_map]
    exact logicalMatch_settles mode rules invert clean fun rule member => ih rule member _ rfl

end RuleTree

/-! ## Headless rules and rule-sets -/

def DefaultHeadlessRule.verdict : InboundContext → DefaultHeadlessRule → Verdict :=
  AbstractDefaultRule.verdict fun item => item.elim

def HeadlessRule.verdict : InboundContext → HeadlessRule → Verdict :=
  RuleTree.verdict DefaultHeadlessRule.verdict

theorem HeadlessRule.matchOn_settles (rule : HeadlessRule) (metadata : InboundContext)
    (clean : metadata.deferredIPCIDRMatchGroups = 0) :
    Settles rule.matchOn metadata (HeadlessRule.verdict metadata rule) := by
  refine RuleTree.matchOn_settles (fun rule metadata clean => ?_) rule metadata clean
  exact AbstractDefaultRule.matchOn_settles ⟨fun item => item.elim, fun item => item.elim⟩ rule clean

def RuleSet.verdict (metadata : InboundContext) (ruleSet : RuleSet) : Verdict :=
  Verdict.any (HeadlessRule.verdict metadata) ruleSet.rules

/-- The rules of a set that its evaluation comes to. -/
def RuleSet.visitedRules (metadata : InboundContext) (ruleSet : RuleSet) : List HeadlessRule :=
  upTo (fun rule => HeadlessRule.verdict metadata rule = .yes) ruleSet.rules

theorem RuleSet.matchOn_settles (ruleSet : RuleSet)
    (clean : metadata.deferredIPCIDRMatchGroups = 0) :
    Settles ruleSet.matchOn metadata (ruleSet.verdict metadata) :=
  matchAnyHeadlessRule_settles ruleSet.rules clean fun rule _ => rule.matchOn_settles metadata clean

namespace RuleSetItem

/-- How one set answers a rule that requires and satisfies these groups; `nested`
is the metadata inside the set. -/
def setOutcome (required satisfied : GroupFlags) (nested : InboundContext) (ruleSet : RuleSet) :
    SetOutcome :=
  match mergeableRuleIn ruleSet.rules with
  | some branch =>
    let merged := satisfied.union (branch.satisfied nested)
    if branch.matchItems nested &&
        (required.union (branch.required nested)).coveredBy merged then
      if branch.defersDestination nested && !merged.destinationAddress then .deferred
      else .settled merged
    else .missed
  | none =>
    if required.coveredBy satisfied then .ofVerdict (ruleSet.verdict nested) else .missed

def setsOutcome (required satisfied : GroupFlags) (nested : InboundContext) :
    List RuleSet → SetOutcome
  | [] => .missed
  | ruleSet :: rest =>
    (setOutcome required satisfied nested ruleSet).or
      (setsOutcome required satisfied nested rest)

/-- The sets that the loop comes to. -/
def visitedSets (required satisfied : GroupFlags) (nested : InboundContext) :
    List RuleSet → List RuleSet :=
  upTo fun ruleSet => (setOutcome required satisfied nested ruleSet).isSettled

def outcome (item : RuleSetItem) (required satisfied : GroupFlags) (metadata : InboundContext) :
    SetOutcome :=
  setsOutcome required satisfied (item.prepareNestedMatch metadata) item.setList

theorem prepareNestedMatch_congr (item : RuleSetItem) {metadata other : InboundContext}
    (same : other.resetRuleCache = metadata.resetRuleCache) :
    item.prepareNestedMatch other = item.prepareNestedMatch metadata := by
  have nested (metadata : InboundContext) : item.prepareNestedMatch metadata =
      item.prepareNestedMatch metadata.resetRuleCache := rfl
  rw [nested other, same, ← nested]

/-- One round of the loop: what it does next depends on the set's outcome only. -/
theorem matchSets_cons (item : RuleSetItem) (required satisfied : GroupFlags)
    (metadata : InboundContext) (ruleSet : RuleSet) (rest : List RuleSet) (pending : Bool)
    (current : InboundContext) (same : current.resetRuleCache = metadata.resetRuleCache) :
    ∃ next : InboundContext, next.resetRuleCache = metadata.resetRuleCache ∧
      item.matchSets ⟨required.bits, satisfied.bits⟩ (snapshotRuleMatch metadata)
          (ruleSet :: rest) pending (deferMask pending) current =
        match setOutcome required satisfied (item.prepareNestedMatch metadata) ruleSet with
        | .missed =>
          item.matchSets ⟨required.bits, satisfied.bits⟩ (snapshotRuleMatch metadata) rest pending
            (deferMask pending) next
        | .deferred =>
          item.matchSets ⟨required.bits, satisfied.bits⟩ (snapshotRuleMatch metadata) rest true
            (deferMask true) next
        | .settled cleared => (SetOutcome.settled cleared).result metadata := by
  have clean : (item.prepareNestedMatch metadata).deferredIPCIDRMatchGroups = 0 := rfl
  have cache (waiting : Bool) :
      ((item.prepareNestedMatch metadata).withDeferred (deferMask waiting)).resetRuleCache =
        metadata.resetRuleCache := rfl
  have accumulated : deferMask pending ||| deferMask true = deferMask true := by
    rw [deferMask_or, Bool.or_true]
  rw [matchSets, item.prepareNestedMatch_congr same, setOutcome]
  generalize item.prepareNestedMatch metadata = nested at *
  cases mergeableRuleIn ruleSet.rules with
  | some branch =>
    refine ⟨_, cache (branch.defersDestination nested), ?_⟩
    simp only [branch.evaluateForMerge_clean clean]
    cases branch.matchItems nested with
    | false => rfl
    | true =>
      simp only [if_true, mergeWith_bits, done_bits, Bool.true_and,
        withDeferred_deferred, deferMask_clear]
      by_cases covered : (required.union (branch.required nested)).coveredBy
          (satisfied.union (branch.satisfied nested)) = true
      · simp only [covered, if_true]
        cases waiting : (branch.defersDestination nested &&
            !(satisfied.union (branch.satisfied nested)).destinationAddress) with
        | false =>
          simp [SetOutcome.result, restore_of_resetRuleCache_eq (cache _)]
        | true => simp [accumulated]
      · simp [covered]
  | none =>
    by_cases covered : required.coveredBy satisfied = true
    · obtain ⟨waiting, result, yes, maybe, -⟩ := ruleSet.matchOn_settles clean
      refine ⟨_, cache waiting, ?_⟩
      simp only [done_bits, covered, result, if_true]
      cases answer : ruleSet.verdict nested with
      | no => simp [SetOutcome.ofVerdict]
      | maybe => simp [SetOutcome.ofVerdict, maybe answer, accumulated]
      | yes =>
        have restored : (snapshotRuleMatch metadata).restore (nested.withDeferred 0#8) = metadata :=
          restore_of_resetRuleCache_eq (cache false)
        simp [SetOutcome.ofVerdict, SetOutcome.result_settled_none, yes answer, restored]
    · refine ⟨nested.withDeferred (deferMask false), cache false, ?_⟩
      simp [done_bits, covered, withDeferred_of_clean clean]

/-- The loop over the sets, entered with some sets already deferred. -/
theorem matchSets_eq (item : RuleSetItem) (required satisfied : GroupFlags)
    (metadata : InboundContext) (sets : List RuleSet) (pending : Bool) (current : InboundContext)
    (same : current.resetRuleCache = metadata.resetRuleCache) :
    item.matchSets ⟨required.bits, satisfied.bits⟩ (snapshotRuleMatch metadata) sets pending
        (deferMask pending) current =
      ((if pending then SetOutcome.deferred else .missed).or
        (setsOutcome required satisfied (item.prepareNestedMatch metadata) sets)).result metadata := by
  induction sets generalizing pending current with
  | nil =>
    rw [matchSets, restoreWithDeferred_eq same]
    cases pending <;> simp [setsOutcome, SetOutcome.or, SetOutcome.result]
  | cons ruleSet rest ih =>
    obtain ⟨next, same', step⟩ :=
      item.matchSets_cons required satisfied metadata ruleSet rest pending current same
    rw [step, setsOutcome]
    cases setOutcome required satisfied (item.prepareNestedMatch metadata) ruleSet with
    | missed => exact ih pending next same'
    | deferred =>
      rw [ih true next same']
      cases pending <;>
        cases setsOutcome required satisfied (item.prepareNestedMatch metadata) rest <;> rfl
    | settled cleared => cases pending <;> rfl

theorem setOutcome_ne_deferred (required satisfied : GroupFlags) {nested : InboundContext}
    (clean : nested.deferredIPCIDRMatchGroups = 0)
    (unignored : nested.ignoreDestinationIPCIDRMatch = false) (ruleSet : RuleSet) :
    setOutcome required satisfied nested ruleSet ≠ .deferred := by
  have answered := (ruleSet.matchOn_settles clean).ne_maybe unignored
  unfold setOutcome
  cases mergeableRuleIn ruleSet.rules with
  | some branch =>
    simp only [branch.defers_of_unignored unignored, Bool.false_and, Bool.false_eq_true, if_false]
    split <;> simp
  | none =>
    simp only
    split
    · cases answer : ruleSet.verdict nested with
      | maybe => exact absurd answer answered
      | no | yes => simp [SetOutcome.ofVerdict]
    · simp

theorem setsOutcome_ne_deferred (required satisfied : GroupFlags) {nested : InboundContext}
    (clean : nested.deferredIPCIDRMatchGroups = 0)
    (unignored : nested.ignoreDestinationIPCIDRMatch = false) (sets : List RuleSet) :
    setsOutcome required satisfied nested sets ≠ .deferred := by
  induction sets with
  | nil => simp [setsOutcome]
  | cons ruleSet rest ih =>
    have first := setOutcome_ne_deferred required satisfied clean unignored ruleSet
    rw [setsOutcome]
    cases answer : setOutcome required satisfied nested ruleSet with
    | missed => exact ih
    | deferred => exact absurd answer first
    | settled cleared => simp [SetOutcome.or]

/-- `matchWithOuterGroups` answers with the outcome of the item's sets. -/
theorem answers : AbstractDefaultRule.Answers matchWithOuterGroups outcome where
  result item required satisfied metadata groups := by
    rw [matchWithOuterGroups]
    exact item.matchSets_eq required satisfied (metadata.withDeferred groups) item.setList false _ rfl
  quiet item required satisfied metadata unignored := by
    have nested : (item.prepareNestedMatch metadata).ignoreDestinationIPCIDRMatch = false :=
      unignored
    exact setsOutcome_ne_deferred required satisfied rfl nested item.setList

end RuleSetItem

def DefaultRule.verdict : InboundContext → DefaultRule → Verdict :=
  AbstractDefaultRule.verdict RuleSetItem.outcome

def RouteRule.verdict : InboundContext → RouteRule → Verdict :=
  RuleTree.verdict DefaultRule.verdict

theorem DefaultRule.matchOn_settles (rule : DefaultRule) (metadata : InboundContext)
    (clean : metadata.deferredIPCIDRMatchGroups = 0) :
    Settles (DefaultRule.matchOn rule) metadata (DefaultRule.verdict metadata rule) :=
  AbstractDefaultRule.matchOn_settles RuleSetItem.answers rule clean

theorem RouteRule.matchOn_settles (rule : RouteRule) (metadata : InboundContext)
    (clean : metadata.deferredIPCIDRMatchGroups = 0) :
    Settles rule.matchOn metadata (RouteRule.verdict metadata rule) :=
  RuleTree.matchOn_settles DefaultRule.matchOn_settles rule metadata clean

end AmneziaBox.Source.Rule
