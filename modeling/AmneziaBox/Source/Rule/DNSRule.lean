import AmneziaBox.Source.Rule.Verdicts

/-!
# DNS rules

`route/rule/rule_dns.go`. A default DNS rule is the abstract default rule with the
response it is bound to. In legacy mode a rule is asked twice: `LegacyPreMatch`
before the lookup, with destination IP items ignored, and `MatchAddressLimit`
on the response, when `WithAddressLimit` says that the rule depends on it.
-/
namespace AmneziaBox.Source.Rule
open Adapter Library InboundContext RuleSetItem RuleTree

structure DefaultDNSRule extends AbstractDefaultRule RuleSetItem where
  matchResponse : Bool := false
  matchResponseTag : String := ""

/-- The rules of `DefaultDNSRule` and `LogicalDNSRule`. -/
abbrev DNSRuleTree := RuleTree DefaultDNSRule

variable {metadata : InboundContext}

namespace DefaultDNSRule

/-- The embedded `abstractDefaultRule.Match`. -/
def abstractMatch (rule : DefaultDNSRule) : Matcher :=
  rule.toAbstractDefaultRule.matchOn matchWithOuterGroups

/-- The metadata a rule sees when its address items are read from a response. -/
def onResponse (metadata : InboundContext) (response : Option Msg) : InboundContext :=
  { metadata with dnsResponse := response, destinationAddressMatchFromResponse := true }

/-- The response that a rule with `match_response` is bound to. -/
def boundResponse (rule : DefaultDNSRule) (metadata : InboundContext) : Option Msg :=
  if rule.matchResponseTag != "" then metadata.namedDNSResponses rule.matchResponseTag
  else metadata.dnsResponse

/-- `matchForMatch`. The response branch works on a copy of the metadata, so the
caller's cache is not written. -/
def matchOn (rule : DefaultDNSRule) : Matcher := fun metadata =>
  if rule.matchResponse then
    match rule.boundResponse metadata with
    | none => (rule.invert, metadata)
    | some response => ((rule.abstractMatch (onResponse metadata response)).1, metadata)
  else rule.abstractMatch metadata

/-- `MatchResponseTags`. -/
def matchResponseTags (rule : DefaultDNSRule) : List String :=
  if rule.matchResponseTag = "" then [] else [rule.matchResponseTag]

/-- `MatchResponseAnonymous`. -/
def matchResponseAnonymous (rule : DefaultDNSRule) : Bool :=
  rule.matchResponse && rule.matchResponseTag == ""

/-- `WithAddressLimit`. -/
def withAddressLimit (rule : DefaultDNSRule) : Bool :=
  !rule.destinationIPCIDRItems.isEmpty ||
    match rule.ruleSetItem with
    | some item => item.containsDestinationIPCIDRRule
    | none => false

def verdict (metadata : InboundContext) (rule : DefaultDNSRule) : Verdict :=
  let abstractVerdict := rule.toAbstractDefaultRule.verdict outcome
  if rule.matchResponse then
    match rule.boundResponse metadata with
    | none => .ofBool rule.invert
    | some response => .ofBool (decide (abstractVerdict (onResponse metadata response) ≠ .no))
  else abstractVerdict metadata

theorem abstractMatch_settles (rule : DefaultDNSRule)
    (clean : metadata.deferredIPCIDRMatchGroups = 0) :
    Settles rule.abstractMatch metadata
      (rule.toAbstractDefaultRule.verdict outcome metadata) :=
  AbstractDefaultRule.matchOn_settles answers rule.toAbstractDefaultRule clean

/-- A result that leaves clean metadata alone settles a final verdict. -/
theorem settles_unchanged {matcher : Matcher} {value : Bool}
    (clean : metadata.deferredIPCIDRMatchGroups = 0) (result : matcher metadata = (value, metadata)) :
    Settles matcher metadata (.ofBool value) := by
  refine ⟨false, ?_, by simp, by cases value <;> simp [Verdict.ofBool], by simp⟩
  rw [result, deferMask_false, withDeferred_of_clean clean]
  cases value <;> rfl

theorem matchOn_settles (rule : DefaultDNSRule) (metadata : InboundContext)
    (clean : metadata.deferredIPCIDRMatchGroups = 0) :
    Settles rule.matchOn metadata (rule.verdict metadata) := by
  unfold verdict
  cases bound : rule.matchResponse with
  | false =>
    have result : rule.matchOn = rule.abstractMatch := by
      funext metadata
      simp [matchOn, bound]
    rw [result]
    exact rule.abstractMatch_settles clean
  | true =>
    cases response : rule.boundResponse metadata with
    | none =>
      apply settles_unchanged clean
      simp [matchOn, bound, response]
    | some response' =>
      have onCopy : (onResponse metadata response').deferredIPCIDRMatchGroups = 0 := clean
      apply settles_unchanged clean
      simp [matchOn, bound, response, (rule.abstractMatch_settles onCopy).fst]

end DefaultDNSRule

namespace DNSRuleTree

/-- `DefaultDNSRule.Match` and `LogicalDNSRule.Match`. -/
def matchOn : DNSRuleTree → Matcher := RuleTree.matchOn DefaultDNSRule.matchOn

/-- `Match` of the embedded abstract rule; on a logical rule this is its `Match`. -/
def abstractMatch : DNSRuleTree → Matcher
  | .default rule => rule.abstractMatch
  | tree => tree.matchOn

/-- `LegacyPreMatch` of both kinds of rules. -/
def legacyPreMatch (tree : DNSRuleTree) : Matcher := fun metadata =>
  match tree with
  | .default { matchResponse := true, .. } => (false, metadata)
  | _ =>
    let (matched, metadata) :=
      tree.abstractMatch { metadata with ignoreDestinationIPCIDRMatch := true }
    (matched, { metadata with ignoreDestinationIPCIDRMatch := false })

/-- `MatchAddressLimit` of both kinds of rules; it works on a copy of the metadata. -/
def matchAddressLimit (tree : DNSRuleTree) (metadata : InboundContext) (response : Option Msg) :
    Bool :=
  (tree.abstractMatch (DefaultDNSRule.onResponse metadata.resetRuleCache response)).1

mutual
/-- `WithAddressLimit` of both kinds of rules. -/
def withAddressLimit : DNSRuleTree → Bool
  | .default rule => rule.withAddressLimit
  | .logical _ rules _ => anyWithAddressLimit rules

def anyWithAddressLimit : List DNSRuleTree → Bool
  | [] => false
  | rule :: rest => withAddressLimit rule || anyWithAddressLimit rest
end

/-- `MatchResponseTag`; a logical rule has none of its own. -/
def matchResponseTag : DNSRuleTree → String
  | .default rule => rule.matchResponseTag
  | .logical _ _ _ => ""

mutual
/-- `MatchResponseTags` of both kinds of rules, without repetitions. -/
def matchResponseTags : DNSRuleTree → List String
  | .default rule => rule.matchResponseTags
  | .logical _ rules _ => (allMatchResponseTags rules).eraseDups

def allMatchResponseTags : List DNSRuleTree → List String
  | [] => []
  | rule :: rest => matchResponseTags rule ++ allMatchResponseTags rest
end

mutual
/-- `MatchResponseAnonymous` of both kinds of rules. -/
def matchResponseAnonymous : DNSRuleTree → Bool
  | .default rule => rule.matchResponseAnonymous
  | .logical _ rules _ => anyMatchResponseAnonymous rules

def anyMatchResponseAnonymous : List DNSRuleTree → Bool
  | [] => false
  | rule :: rest => matchResponseAnonymous rule || anyMatchResponseAnonymous rest
end

theorem mem_allMatchResponseTags {rules : List DNSRuleTree} {tag : String} :
    tag ∈ allMatchResponseTags rules ↔ ∃ rule ∈ rules, tag ∈ matchResponseTags rule := by
  induction rules with
  | nil => simp [allMatchResponseTags]
  | cons first rest ih => simp [allMatchResponseTags, ih]

variable {tree : DNSRuleTree}

/-- The tags of a rule are the tags of its default rules. -/
theorem mem_matchResponseTags {tag : String} :
    tag ∈ tree.matchResponseTags ↔
      ∃ leaf ∈ tree.leaves, leaf.matchResponseTag = tag ∧ tag ≠ "" := by
  induction tree using ind with
  | default rule =>
    simp only [matchResponseTags, DefaultDNSRule.matchResponseTags, leaves,
      List.mem_singleton, exists_eq_left]
    split
    · rename_i untagged
      simp only [List.not_mem_nil, false_iff, not_and, not_not]
      exact fun same => same ▸ untagged
    · rename_i tagged
      rw [List.mem_singleton]
      exact ⟨fun same => ⟨same.symm, same ▸ tagged⟩, fun same => same.1.symm⟩
  | logical mode rules invert ih =>
    rw [matchResponseTags, List.mem_eraseDups, mem_allMatchResponseTags, leaves,
      exists_leavesOf]
    exact exists_congr fun rule => and_congr_right fun member => ih rule member

/-- The tag a rule responds with is among its tags. -/
theorem matchResponseTag_mem (tagged : tree.matchResponseTag ≠ "") :
    tree.matchResponseTag ∈ tree.matchResponseTags := by
  cases tree with
  | default rule =>
    exact mem_matchResponseTags.mpr ⟨rule, by simp [leaves], rfl, tagged⟩
  | logical mode rules invert => exact absurd rfl tagged

theorem matchResponseAnonymous_iff :
    tree.matchResponseAnonymous = true ↔
      ∃ leaf ∈ tree.leaves, leaf.matchResponseAnonymous = true := by
  have anyOf (rules : List DNSRuleTree) : anyMatchResponseAnonymous rules = true ↔
      ∃ rule ∈ rules, matchResponseAnonymous rule = true := by
    induction rules with
    | nil => simp [anyMatchResponseAnonymous]
    | cons first rest ih => simp [anyMatchResponseAnonymous, ih]
  induction tree using ind with
  | default rule => simp [matchResponseAnonymous, leaves]
  | logical mode rules invert ih =>
    rw [matchResponseAnonymous, anyOf, leaves, exists_leavesOf]
    exact exists_congr fun rule => and_congr_right fun member => ih rule member

/-- The rule reads a response of an earlier `evaluate` action. -/
def hasBindings (tree : DNSRuleTree) : Bool :=
  !tree.matchResponseTags.isEmpty || tree.matchResponseAnonymous

def verdict : InboundContext → DNSRuleTree → Verdict := RuleTree.verdict DefaultDNSRule.verdict

theorem matchOn_settles (tree : DNSRuleTree) (metadata : InboundContext)
    (clean : metadata.deferredIPCIDRMatchGroups = 0) :
    Settles tree.matchOn metadata (verdict metadata tree) :=
  RuleTree.matchOn_settles DefaultDNSRule.matchOn_settles tree metadata clean

/-- The embedded `Match` writes nothing but the deferred groups. -/
theorem abstractMatch_frame (tree : DNSRuleTree) (clean : metadata.deferredIPCIDRMatchGroups = 0) :
    ∃ groups, (tree.abstractMatch metadata).2 = metadata.withDeferred groups := by
  cases tree with
  | default rule =>
    obtain ⟨waiting, result, -⟩ := rule.abstractMatch_settles clean
    refine ⟨deferMask waiting, ?_⟩
    change (rule.abstractMatch metadata).2 = _
    rw [result]
  | logical mode rules invert =>
    obtain ⟨waiting, result, -⟩ :=
      DNSRuleTree.matchOn_settles (.logical mode rules invert) metadata clean
    refine ⟨deferMask waiting, ?_⟩
    change (DNSRuleTree.matchOn (.logical mode rules invert) metadata).2 = _
    rw [result]

/-- `LegacyPreMatch` leaves everything but the deferred groups as it was. -/
theorem legacyPreMatch_frame (tree : DNSRuleTree) (clean : metadata.deferredIPCIDRMatchGroups = 0)
    (unignored : metadata.ignoreDestinationIPCIDRMatch = false) :
    ∃ groups, (tree.legacyPreMatch metadata).2 = metadata.withDeferred groups := by
  have before : ({ metadata with ignoreDestinationIPCIDRMatch := true } :
    InboundContext).deferredIPCIDRMatchGroups = 0 := clean
  unfold legacyPreMatch
  split
  · exact ⟨0, (withDeferred_of_clean clean).symm⟩
  · obtain ⟨groups, result⟩ := tree.abstractMatch_frame before
    refine ⟨groups, ?_⟩
    simp only [result]
    rw [withDeferred, withDeferred, unignored]

/-- No rule of the tree is bound to a response. -/
def NoMatchResponse (tree : DNSRuleTree) : Prop :=
  ∀ leaf ∈ tree.leaves, leaf.matchResponse = false

theorem abstractMatch_of_noMatchResponse (unbound : tree.NoMatchResponse) :
    tree.abstractMatch = tree.matchOn := by
  cases tree with
  | logical mode rules invert => rfl
  | default rule =>
    have free : rule.matchResponse = false := unbound rule (by simp [leaves])
    funext metadata
    change rule.abstractMatch metadata = rule.matchOn metadata
    simp [DefaultDNSRule.matchOn, free]

end DNSRuleTree
end AmneziaBox.Source.Rule
