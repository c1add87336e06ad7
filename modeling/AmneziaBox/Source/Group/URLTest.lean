import Mathlib.Algebra.Ring.Nat
import Mathlib.Data.List.Basic

/-!
# Selection by URL test

`Select` and `performUpdateCheck` of `protocol/group/urltest.go`. The histories are outside, as
the delay that is stored for the real tag of a member.
-/
namespace AmneziaBox.Source.Group

inductive Network where
  | tcp
  | udp
  deriving DecidableEq, Repr

structure URLTestGroup (α : Type) where
  outbounds : List α
  tolerance : BitVec 16
  selectedOutboundTCP : Option α := none
  selectedOutboundUDP : Option α := none

variable {α : Type}

def URLTestGroup.selectedOutbound (group : URLTestGroup α) : Network → Option α
  | .tcp => group.selectedOutboundTCP
  | .udp => group.selectedOutboundUDP

/-- One round of the loop over the members, with `minDelay` and `minOutbound`; a member that
is skipped has no delay. The sum is an `uint16` and wraps. -/
def consider (tolerance : BitVec 16) (delays : α → Option (BitVec 16))
    (least : BitVec 16 × Option α) (detour : α) : BitVec 16 × Option α :=
  match delays detour with
  | none => least
  | some delay =>
    if least.1 = 0 ∨ delay + tolerance < least.1 then (delay, some detour) else least

section Select
variable (supports : α → Network → Bool) (history : α → Network → Option (BitVec 16))
  (group : URLTestGroup α) (network : Network)

/-- `minDelay` and `minOutbound` before the loop. -/
def initial : BitVec 16 × Option α :=
  match group.selectedOutbound network with
  | none => (0, none)
  | some outbound =>
    match history outbound network with
    | none => (0, none)
    | some delay => (delay, some outbound)

/-- The delay of a member that the loop does not skip. -/
def tested (detour : α) : Option (BitVec 16) :=
  if supports detour network then history detour network else none

def select : Option α × Bool :=
  match (group.outbounds.foldl (consider group.tolerance (tested supports history network))
    (initial history group network)).2 with
  | none => (group.outbounds.find? (supports · network), false)
  | some outbound => (some outbound, true)

end Select

section Update
variable [DecidableEq α] (supports : α → Network → Bool)
  (history : α → Network → Option (BitVec 16))

/-- The selection after `Select` has found this. -/
def updated (current : Option α) : Option α × Bool → Option α
  | (none, _) => current
  | (some outbound, found) =>
    if current = none ∨ (found ∧ some outbound ≠ current) then some outbound else current

def performUpdateCheck (group : URLTestGroup α) : URLTestGroup α :=
  let group := { group with
    selectedOutboundTCP := updated group.selectedOutboundTCP (select supports history group .tcp) }
  { group with
    selectedOutboundUDP := updated group.selectedOutboundUDP (select supports history group .udp) }

end Update
end AmneziaBox.Source.Group
