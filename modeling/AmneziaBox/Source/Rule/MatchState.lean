import AmneziaBox.Source.Adapter.InboundContext

/-!
# Match groups of a default rule

`route/rule/match_state.go`. A default rule asks four questions (source
address, source port, destination address, destination port), one bit each. A
group is required when the rule has items for it and satisfied when one of them
matches.
-/
namespace AmneziaBox.Source.Rule
open Adapter

abbrev RuleMatchState := BitVec 8

def ruleMatchSourceAddress : RuleMatchState := 1
def ruleMatchSourcePort : RuleMatchState := 2
def ruleMatchDestinationAddress : RuleMatchState := 4
def ruleMatchDestinationPort : RuleMatchState := 8

def RuleMatchState.has (state target : RuleMatchState) : Bool := state &&& target != 0

structure RuleGroupMatch where
  required : RuleMatchState := 0
  satisfied : RuleMatchState := 0
  deriving DecidableEq, Repr

namespace RuleGroupMatch

def done (groups : RuleGroupMatch) : Bool := groups.required &&& ~~~groups.satisfied == 0

def mergeWith (groups other : RuleGroupMatch) : RuleGroupMatch where
  required := groups.required ||| other.required
  satisfied := groups.satisfied ||| other.satisfied

/-- One guarded block of `evaluateGroups`: when the rule asks for the group,
require its bit and satisfy it when `matched`. -/
def require (groups : RuleGroupMatch) (group : RuleMatchState) (asked matched : Bool) :
    RuleGroupMatch :=
  if asked then
    { required := groups.required ||| group
      satisfied := if matched then groups.satisfied ||| group else groups.satisfied }
  else groups

end RuleGroupMatch

structure RuleMatchSnapshot where
  ipCIDRMatchSource : Bool
  ipCIDRAcceptEmpty : Bool
  deferredIPCIDRMatchGroups : BitVec 8

def snapshotRuleMatch (metadata : InboundContext) : RuleMatchSnapshot :=
  ⟨metadata.ipCIDRMatchSource, metadata.ipCIDRAcceptEmpty, metadata.deferredIPCIDRMatchGroups⟩

def RuleMatchSnapshot.restore (snapshot : RuleMatchSnapshot) (metadata : InboundContext) :
    InboundContext :=
  { metadata with
    ipCIDRMatchSource := snapshot.ipCIDRMatchSource
    ipCIDRAcceptEmpty := snapshot.ipCIDRAcceptEmpty
    deferredIPCIDRMatchGroups := snapshot.deferredIPCIDRMatchGroups }

end AmneziaBox.Source.Rule
