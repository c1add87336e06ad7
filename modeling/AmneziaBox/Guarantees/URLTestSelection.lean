import AmneziaBox.Library.Machine
import AmneziaBox.Source.Group.URLTest

/-!
# Selection within the tolerance

One pass keeps a member that no member before it beats by more than the tolerance: the
reference only falls, so what was within the tolerance of it stays so. A round decides by a sum
of 16 bits, which may wrap, and takes a delay of zero for no reference at all: it may give up its
reference for a member that does not beat it.
-/
namespace AmneziaBox.Guarantees.URLTestSelection
open Library Source.Group List

variable {α : Type}

section Pass
variable (tolerance : BitVec 16) (delays : α → Option (BitVec 16))

/-- No member that has a delay beats this one by more than the tolerance. -/
def Within (members : List α) (delay : BitVec 16) : Prop :=
  ∀ member ∈ members, ∀ other ∈ delays member, delay.toNat ≤ other.toNat + tolerance.toNat

/-- A member other than the reference finds a reference whose delay is not zero, and not above
the sum if that wraps. -/
def Decides (least : BitVec 16 × Option α) (detour : α) : Prop :=
  ∀ delay ∈ delays detour, ∀ outbound ∈ least.2, detour ≠ outbound →
    least.1 ≠ 0 ∧ (2 ^ 16 ≤ delay.toNat + tolerance.toNat →
      least.1.toNat ≤ delay.toNat + tolerance.toNat - 2 ^ 16)

instance [DecidableEq α] (least : BitVec 16 × Option α) (detour : α) :
    Decidable (Decides tolerance delays least detour) :=
  decidable_of_iff ((delays detour).all fun delay => least.2.all fun outbound =>
      decide (detour ≠ outbound → least.1 ≠ 0 ∧ (2 ^ 16 ≤ delay.toNat + tolerance.toNat →
        least.1.toNat ≤ delay.toNat + tolerance.toNat - 2 ^ 16))) <| by
    simp only [Decides, Option.all_eq_true, decide_eq_true_eq, Option.mem_def]

/-- The loop, round by round. -/
def round (least : BitVec 16 × Option α) (detour : α) : Option (BitVec 16 × Option α) :=
  some (consider tolerance delays least detour)

variable {tolerance delays} {detour outbound : α} {delay other : BitVec 16}
  {passed members : List α} {least : BitVec 16 × Option α}

theorem Within.append (within : Within tolerance delays passed delay)
    (last : ∀ other ∈ delays detour, delay.toNat ≤ other.toNat + tolerance.toNat) :
    Within tolerance delays (passed ++ [detour]) delay :=
  forall_mem_append.mpr ⟨within, forall_mem_singleton.mpr last⟩

end Pass

variable {supports : α → Network → Bool} {history : α → Network → Option (BitVec 16)}
  {group : URLTestGroup α} {network : Network}

/-! ## The selection is a member -/

variable (supports) in
/-- The current selections are members that support the network. -/
def Listed (group : URLTestGroup α) : Prop :=
  ∀ network, ∀ current ∈ group.selectedOutbound network,
    current ∈ group.outbounds ∧ supports current network = true

theorem initial_eq_some {outbound : α} {delay : BitVec 16} :
    initial history group network = (delay, some outbound) ↔
      group.selectedOutbound network = some outbound ∧ history outbound network = some delay := by
  grind [initial]

theorem select_listed (listed : Listed supports group) {outbound : α}
    (selected : (select supports history group network).1 = some outbound) :
    outbound ∈ group.outbounds ∧ supports outbound network = true := by
  -- whatever the rounds decide, they hold the selection or a member
  have held : ∀ outbound ∈ (group.outbounds.foldl
      (consider group.tolerance (tested supports history network))
      (initial history group network)).2,
      outbound ∈ group.outbounds ∧ supports outbound network = true := by
    refine foldlRecOn (motive := fun least : BitVec 16 × Option α => ∀ outbound ∈ least.2,
      outbound ∈ group.outbounds ∧ supports outbound network = true) group.outbounds _ ?_ ?_
    · intro outbound first
      exact listed network outbound (initial_eq_some.mp (Prod.ext rfl first)).1
    · intro least kept detour here
      unfold consider
      cases found : tested supports history network detour with
      | none => exact kept
      | some delay =>
        dsimp only
        split
        · intro outbound same
          cases same
          exact ⟨here, (Option.ite_none_right_eq_some.mp found).1⟩
        · exact kept
  unfold select at selected
  split at selected
  · have supported := find?_some selected
    exact ⟨mem_of_find?_eq_some selected, supported⟩
  · next outbound found =>
    cases selected
    exact held outbound found

theorem mem_updated [DecidableEq α] {current : Option α} {found : Option α × Bool} {outbound : α}
    (member : outbound ∈ updated current found) : current = some outbound ∨ found.1 = some outbound := by
  obtain ⟨_ | selected, exists_⟩ := found
  · exact .inl member
  · rw [updated] at member
    split at member
    · exact .inr member
    · exact .inl member

/-- A check keeps the selections among the members. -/
theorem performUpdateCheck_listed [DecidableEq α] (listed : Listed supports group) :
    Listed supports (performUpdateCheck supports history group) := by
  have first : Listed supports { group with
      selectedOutboundTCP := updated group.selectedOutboundTCP (select supports history group .tcp) } := by
    intro network current selected
    cases network with
    | tcp => exact (mem_updated selected).elim (listed .tcp current) (select_listed listed)
    | udp => exact listed .udp current selected
  intro network current selected
  cases network with
  | tcp => exact first .tcp current selected
  | udp => exact (mem_updated selected).elim (first .udp current) (select_listed first)

/-! ## The result -/

/-- Two members that support every network, tested with these delays. -/
def delays (first second : BitVec 16) (member : Bool) (_ : Network) : Option (BitVec 16) :=
  some (if member then second else first)

end AmneziaBox.Guarantees.URLTestSelection
