import AmneziaBox.Source.Rule.AbstractRule

/-!
# Which groups a default rule requires and satisfies

The bit masks of `evaluateGroups` read as one Boolean per group. The masks only
ever hold the four group bits, so this loses nothing, and the questions the
evaluator asks of them (done, merged, cleared) become Boolean ones.
-/
namespace AmneziaBox.Source.Rule
open Adapter RuleGroupMatch

structure GroupFlags where
  sourceAddress : Bool
  sourcePort : Bool
  destinationAddress : Bool
  destinationPort : Bool
  deriving DecidableEq, Repr

namespace GroupFlags

def bits : GroupFlags → RuleMatchState
  | ⟨sourceAddress, sourcePort, destinationAddress, destinationPort⟩ =>
    (if sourceAddress then ruleMatchSourceAddress else 0) |||
    (if sourcePort then ruleMatchSourcePort else 0) |||
    (if destinationAddress then ruleMatchDestinationAddress else 0) |||
    (if destinationPort then ruleMatchDestinationPort else 0)

/-- Group by group disjunction. -/
def union (flags other : GroupFlags) : GroupFlags where
  sourceAddress := flags.sourceAddress || other.sourceAddress
  sourcePort := flags.sourcePort || other.sourcePort
  destinationAddress := flags.destinationAddress || other.destinationAddress
  destinationPort := flags.destinationPort || other.destinationPort

/-- Every required group is satisfied. -/
def coveredBy (required satisfied : GroupFlags) : Bool :=
  (!required.sourceAddress || satisfied.sourceAddress) &&
  (!required.sourcePort || satisfied.sourcePort) &&
  (!required.destinationAddress || satisfied.destinationAddress) &&
  (!required.destinationPort || satisfied.destinationPort)

theorem bits_union (flags other : GroupFlags) :
    flags.bits ||| other.bits = (flags.union other).bits := by
  rcases flags with ⟨a, b, c, d⟩
  rcases other with ⟨a', b', c', d'⟩
  revert a b c d a' b' c' d'
  decide

theorem done_bits (required satisfied : GroupFlags) :
    done ⟨required.bits, satisfied.bits⟩ = required.coveredBy satisfied := by
  rcases required with ⟨a, b, c, d⟩
  rcases satisfied with ⟨a', b', c', d'⟩
  revert a b c d a' b' c' d'
  decide

theorem mergeWith_bits (required satisfied required' satisfied' : GroupFlags) :
    mergeWith ⟨required.bits, satisfied.bits⟩ ⟨required'.bits, satisfied'.bits⟩ =
      ⟨(required.union required').bits, (satisfied.union satisfied').bits⟩ := by
  simp [mergeWith, bits_union]

theorem has_sourceAddress (flags : GroupFlags) :
    flags.bits.has ruleMatchSourceAddress = flags.sourceAddress := by
  rcases flags with ⟨a, b, c, d⟩
  revert a b c d
  decide

theorem has_destinationAddress (flags : GroupFlags) :
    flags.bits.has ruleMatchDestinationAddress = flags.destinationAddress := by
  rcases flags with ⟨a, b, c, d⟩
  revert a b c d
  decide

/-- The groups, if there are items for them. -/
def onlyIf (asked : Bool) (group : GroupFlags) : GroupFlags where
  sourceAddress := asked && group.sourceAddress
  sourcePort := asked && group.sourcePort
  destinationAddress := asked && group.destinationAddress
  destinationPort := asked && group.destinationPort

/-- One guarded block of `evaluateGroups`, for any group. -/
theorem require_bits (group required satisfied : GroupFlags) (asked matched : Bool) :
    require ⟨required.bits, satisfied.bits⟩ group.bits asked matched =
      ⟨(required.union (onlyIf asked group)).bits,
        (satisfied.union (onlyIf (asked && matched) group)).bits⟩ := by
  cases asked <;> cases matched <;>
    simp [require, bits_union, union, onlyIf]

end GroupFlags

/-- The deferred groups as the evaluator leaves them: nothing, or the destination
address group. -/
def deferMask (waiting : Bool) : BitVec 8 := if waiting then ruleMatchDestinationAddress else 0

@[simp] theorem deferMask_false : deferMask false = 0#8 := rfl

@[simp] theorem deferMask_eq_zero (waiting : Bool) :
    deferMask waiting = 0#8 ↔ waiting = false := by
  cases waiting <;> decide

theorem deferMask_or (waiting other : Bool) :
    deferMask waiting ||| deferMask other = deferMask (waiting || other) := by
  cases waiting <;> cases other <;> decide

/-- Clearing the satisfied groups clears the wait exactly when the destination
address group is among them. -/
theorem deferMask_clear (waiting : Bool) (satisfied : GroupFlags) :
    deferMask waiting &&& ~~~satisfied.bits =
      deferMask (waiting && !satisfied.destinationAddress) := by
  rcases satisfied with ⟨a, b, c, d⟩
  revert waiting a b c d
  decide

theorem nonempty_and_matchAnyItem (items : List RuleItem) (metadata : InboundContext) :
    (!items.isEmpty && matchAnyItem items metadata) = matchAnyItem items metadata := by
  cases items with
  | nil => rfl
  | cons item rest => simp

theorem nonempty_and_matchAnyIPItem (items : List DestinationIPItem) (metadata : InboundContext) :
    (!items.isEmpty && matchAnyIPItem items metadata) = matchAnyIPItem items metadata := by
  cases items with
  | nil => rfl
  | cons item rest => simp

namespace AbstractDefaultRule
variable {σ : Type}

/-- The groups for which the rule has items that count in this evaluation. -/
def required (rule : AbstractDefaultRule σ) (metadata : InboundContext) : GroupFlags where
  sourceAddress :=
    !rule.sourceAddressItems.isEmpty || rule.destinationIPCIDRMatchesSource metadata
  sourcePort := !rule.sourcePortItems.isEmpty
  destinationAddress :=
    !rule.destinationAddressItems.isEmpty || rule.destinationIPCIDRMatchesDestination metadata
  destinationPort := !rule.destinationPortItems.isEmpty

/-- The groups of which some item matches. -/
def satisfied (rule : AbstractDefaultRule σ) (metadata : InboundContext) : GroupFlags where
  sourceAddress :=
    matchAnyItem rule.sourceAddressItems metadata ||
      (rule.destinationIPCIDRMatchesSource metadata &&
        matchAnyIPItem rule.destinationIPCIDRItems metadata)
  sourcePort := matchAnyItem rule.sourcePortItems metadata
  destinationAddress :=
    matchAnyItem rule.destinationAddressItems metadata ||
      (rule.destinationIPCIDRMatchesDestination metadata &&
        matchAnyIPItem rule.destinationIPCIDRItems metadata)
  destinationPort := matchAnyItem rule.destinationPortItems metadata

theorem evaluateGroups_eq (rule : AbstractDefaultRule σ) (metadata : InboundContext) :
    rule.evaluateGroups metadata =
      (⟨(rule.required metadata).bits, (rule.satisfied metadata).bits⟩,
        if rule.defersDestination metadata then
          metadata.withDeferred
            (metadata.deferredIPCIDRMatchGroups ||| ruleMatchDestinationAddress)
        else metadata) := by
  have start : ({} : RuleGroupMatch) =
      ⟨(GroupFlags.mk false false false false).bits,
        (GroupFlags.mk false false false false).bits⟩ := rfl
  have sourceAddress (r s a m) : require ⟨GroupFlags.bits r, GroupFlags.bits s⟩
      ruleMatchSourceAddress a m = _ := GroupFlags.require_bits ⟨true, false, false, false⟩ r s a m
  have sourcePort (r s a m) : require ⟨GroupFlags.bits r, GroupFlags.bits s⟩
      ruleMatchSourcePort a m = _ := GroupFlags.require_bits ⟨false, true, false, false⟩ r s a m
  have destinationAddress (r s a m) : require ⟨GroupFlags.bits r,
      GroupFlags.bits s⟩ ruleMatchDestinationAddress a m = _ :=
    GroupFlags.require_bits ⟨false, false, true, false⟩ r s a m
  have destinationPort (r s a m) : require ⟨GroupFlags.bits r, GroupFlags.bits s⟩
      ruleMatchDestinationPort a m = _ := GroupFlags.require_bits ⟨false, false, false, true⟩ r s a m
  have second (first asked matched : Bool) :
      (first || (asked && (!first && matched))) = (first || (asked && matched)) := by
    revert first asked matched
    decide
  simp only [evaluateGroups, start, sourceAddress, sourcePort, destinationAddress,
    destinationPort, GroupFlags.union, GroupFlags.onlyIf, GroupFlags.has_sourceAddress,
    GroupFlags.has_destinationAddress, Bool.false_or, Bool.or_false, Bool.and_true, Bool.and_false,
    nonempty_and_matchAnyItem, second, required, satisfied]

end AbstractDefaultRule
end AmneziaBox.Source.Rule
