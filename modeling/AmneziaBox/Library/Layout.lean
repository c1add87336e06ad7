import Mathlib.Algebra.Ring.Nat
import Mathlib.Data.List.Forall2
import Mathlib.Algebra.Order.BigOperators.Group.List

/-!
# Parts of a file at their offsets

Parts that are written one after the other, and the segments at which a reader finds
them again.
-/
namespace AmneziaBox.Library
open List

/-! ## Alignment -/

/-- The next multiple of the unit. -/
def alignUp (unit offset : Nat) : Nat := (offset + (unit - 1)) / unit * unit

theorem alignUp_dvd (unit offset : Nat) : unit ∣ alignUp unit offset := Nat.dvd_mul_left _ _

theorem le_alignUp {unit : Nat} (positive : 0 < unit) (offset : Nat) :
    offset ≤ alignUp unit offset := by
  have whole := Nat.div_add_mod (offset + (unit - 1)) unit
  have less := Nat.mod_lt (offset + (unit - 1)) positive
  unfold alignUp
  rw [Nat.mul_comm]
  omega

theorem alignUp_of_dvd {unit offset : Nat} (positive : 0 < unit) (aligned : unit ∣ offset) :
    alignUp unit offset = offset := by
  obtain ⟨count, rfl⟩ := aligned
  unfold alignUp
  rw [Nat.mul_add_div positive, Nat.div_eq_of_lt (by omega), Nat.add_zero, Nat.mul_comm]

/-! ## Segments -/

structure Segment where
  offset : Nat
  length : Nat
  deriving DecidableEq, Repr

namespace Segment

def stop (segment : Segment) : Nat := segment.offset + segment.length

def Before (first second : Segment) : Prop := first.stop ≤ second.offset

/-- One of the two stops before the other one starts. -/
def Apart (first second : Segment) : Prop := Before first second ∨ Before second first

theorem Before.apart {first second : Segment} (before : Before first second) :
    Apart first second := .inl before

variable {α : Type}

def slice (segment : Segment) (data : List α) : List α :=
  (data.drop segment.offset).take segment.length

theorem slice_append (before part after : List α) :
    slice ⟨before.length, part.length⟩ (before ++ (part ++ after)) = part := by
  unfold slice
  rw [drop_left, take_left]

/-- Segments one after the other. -/
def place (start : Nat) : List Nat → List Segment
  | [] => []
  | size :: rest => ⟨start, size⟩ :: place (start + size) rest

@[simp] theorem place_length (start : Nat) (sizes : List Nat) :
    (place start sizes).length = sizes.length := by
  induction sizes generalizing start with
  | nil => rfl
  | cons size rest ih => rw [place, length_cons, ih, length_cons]

variable {start : Nat} {sizes : List Nat}

theorem le_of_mem_place {segment : Segment} (member : segment ∈ place start sizes) :
    start ≤ segment.offset := by
  induction sizes generalizing start with
  | nil => cases member
  | cons size rest ih =>
    obtain rfl | later := mem_cons.mp member
    · exact Nat.le_refl _
    · exact Nat.le_trans (Nat.le_add_right _ _) (ih later)

theorem stop_le_of_mem_place {segment : Segment} (member : segment ∈ place start sizes) :
    segment.stop ≤ start + sizes.sum := by
  induction sizes generalizing start with
  | nil => cases member
  | cons size rest ih =>
    rw [sum_cons]
    obtain rfl | later := mem_cons.mp member
    · exact Nat.add_le_add_left (Nat.le_add_right _ _) _
    · have bound := ih later
      omega

theorem place_pairwise (start : Nat) (sizes : List Nat) :
    (place start sizes).Pairwise Before := by
  induction sizes generalizing start with
  | nil => exact .nil
  | cons size rest ih => exact .cons (fun _ member => le_of_mem_place member) (ih _)

theorem place_aligned {unit : Nat} (first : unit ∣ start) (each : ∀ size ∈ sizes, unit ∣ size) :
    ∀ segment ∈ place start sizes, unit ∣ segment.offset := by
  induction sizes generalizing start with
  | nil => nofun
  | cons size rest ih =>
    intro segment member
    obtain rfl | later := mem_cons.mp member
    · exact first
    · exact ih (Nat.dvd_add first (each size mem_cons_self))
        (fun size member => each size (mem_cons_of_mem _ member)) segment later

/-- Parts that are written one after the other are found at their segments. -/
theorem slice_place (before after : List α) (parts : List (List α)) :
    List.Forall₂ (fun segment part => segment.length = part.length ∧
        slice segment (before ++ (parts.flatten ++ after)) = part)
      (place before.length (parts.map List.length)) parts := by
  induction parts generalizing before with
  | nil => exact .nil
  | cons part rest ih =>
    refine .cons ⟨rfl, ?_⟩ ?_
    · rw [flatten_cons, append_assoc]
      exact slice_append before part _
    · have later := ih (before ++ part)
      rw [length_append, append_assoc, ← append_assoc part] at later
      exact later

end Segment
end AmneziaBox.Library
