import Mathlib.Logic.Function.Basic
import Mathlib.Data.List.Basic

/-!
# Pairs of inverse partial maps

Two partial maps are paired when each is the inverse of the other, so that they
describe a partial bijection. `assign` moves a key to a new owner and forgets the old
one. `replace` is the same write made without knowing the other writes of its batch: it
forgets the old owner only if that still points back. After a batch of such writes the
maps are paired again, in whatever order they were made, provided the owners of the
batch are distinct.
-/
namespace AmneziaBox.Library
open Function

variable {α β : Type} [DecidableEq α] [DecidableEq β]
  {forward : α → Option β} {backward : β → Option α}

/-- The two maps are inverse to each other. -/
def Paired (forward : α → Option β) (backward : β → Option α) : Prop :=
  ∀ a b, forward a = some b ↔ backward b = some a

namespace Paired

omit [DecidableEq α] [DecidableEq β] in
theorem forward_injective (paired : Paired forward backward) {a x : α} {b : β}
    (first : forward a = some b) (second : forward x = some b) : a = x :=
  Option.some.inj (((paired a b).mp first).symm.trans ((paired x b).mp second))

omit [DecidableEq α] [DecidableEq β] in
/-- A map has only one inverse. -/
theorem unique {other : β → Option α} (first : Paired forward backward)
    (second : Paired forward other) : backward = other := by
  funext b
  exact Option.ext fun a => (first a b).symm.trans (second a b)

end Paired

/-- The backward map after `a` goes to `b`; the owner that `a` had loses it. -/
def assign (forward : α → Option β) (backward : β → Option α) (a : α) (b : β) :
    β → Option α :=
  match forward a with
  | some old => update (update backward old none) b (some a)
  | none => update backward b (some a)

omit [DecidableEq α] in
theorem assign_apply (forward : α → Option β) (backward : β → Option α) (a : α) (b c : β) :
    assign forward backward a b c =
      if c = b then some a else if forward a = some c then none else backward c := by
  unfold assign
  cases owner : forward a with
  | none => simp [update_apply]
  | some old => simp [update_apply, eq_comm (a := old)]

theorem Paired.assign (paired : Paired forward backward) {a : α} {b : β}
    (free : backward b = none) :
    Paired (update forward a (some b)) (Library.assign forward backward a b) := by
  intro x c
  rw [update_apply, assign_apply]
  by_cases here : x = a
  · subst here
    rw [if_pos rfl, Option.some.injEq]
    by_cases same : c = b
    · simp [same]
    · rw [if_neg same]
      constructor
      · exact fun equal => absurd equal.symm same
      · intro found
        split at found
        · cases found
        · next other => exact absurd ((paired x c).mpr found) other
  · rw [if_neg here, paired x c]
    by_cases same : c = b
    · subst same
      simp [free, Ne.symm here]
    · rw [if_neg same]
      by_cases owner : forward a = some c
      · rw [if_pos owner, (paired a c).mp owner]
        simp [Ne.symm here]
      · rw [if_neg owner]

/-- The backward map after `a` is written to `b`; the owner that `a` had loses it only if
it still has it. -/
def replace (forward : α → Option β) (backward : β → Option α) (a : α) (b : β) :
    β → Option α :=
  match forward a with
  | some old =>
    if backward old = some a then
      update (update backward old none) b (some a)
    else update backward b (some a)
  | none => update backward b (some a)

theorem replace_apply (forward : α → Option β) (backward : β → Option α) (a : α) (b c : β) :
    replace forward backward a b c =
      if c = b then some a
      else if forward a = some c ∧ backward c = some a then none else backward c := by
  unfold replace
  cases owner : forward a with
  | none => simp [update_apply]
  | some old =>
    dsimp only
    by_cases points : backward old = some a
    · rw [if_pos points]
      by_cases here : c = old
      · subst here
        simp [update_apply, points]
      · simp [update_apply, here, Ne.symm here]
    · rw [if_neg points]
      by_cases here : c = old
      · subst here
        simp [update_apply, points]
      · simp [update_apply, Ne.symm here]

/-- Paired but for the writes that are still to come: an owner points to the key written
to it, and without one to the key it had before. -/
def PairedAfter (written : List α) (forward : α → Option β) (backward : β → Option α) : Prop :=
  ∀ a b, backward b = some a ↔
    forward a = some b ∧ (a ∈ written ∨ ∀ x ∈ written, forward x ≠ some b)

omit [DecidableEq α] [DecidableEq β] in
theorem Paired.pairedAfter (paired : Paired forward backward) :
    PairedAfter [] forward backward := by
  intro a b
  rw [← paired a b]
  simp

omit [DecidableEq α] [DecidableEq β] in
theorem PairedAfter.paired {written : List α} (after : PairedAfter written forward backward)
    (injective : ∀ a x b, forward a = some b → forward x = some b → a = x) :
    Paired forward backward := by
  intro a b
  rw [after a b]
  constructor
  · intro owned
    refine ⟨owned, ?_⟩
    by_cases member : a ∈ written
    · exact .inl member
    · refine .inr fun x belongs other => ?_
      rw [injective a x b owned other] at member
      exact member belongs
  · exact And.left

theorem PairedAfter.replace {written : List α} (after : PairedAfter written forward backward)
    {a : α} {b : β} (fresh : a ∉ written) (unowned : ∀ x ∈ written, forward x ≠ some b) :
    PairedAfter (a :: written) (update forward a (some b))
      (Library.replace forward backward a b) := by
  intro x c
  rw [replace_apply]
  by_cases same : c = b
  · -- the new owner: only `a` points to it now
    subst same
    rw [if_pos rfl, Option.some.injEq]
    constructor
    · rintro rfl
      simp
    · rintro ⟨owned, position⟩
      by_contra different
      rw [update_of_ne (Ne.symm different)] at owned
      rcases position with member | none
      · rcases List.mem_cons.mp member with equal | belongs
        · exact different equal.symm
        · exact unowned x belongs owned
      · exact none a (by simp) (update_self ..)
  · rw [if_neg same]
    have others : (∀ y ∈ a :: written, update forward a (some b) y ≠ some c) ↔
        ∀ y ∈ written, forward y ≠ some c := by
      rw [List.forall_mem_cons, update_self]
      refine (and_iff_right (by simpa using Ne.symm same)).trans
        (forall₂_congr fun y belongs => ?_)
      rw [update_of_ne (by rintro rfl; exact fresh belongs)]
    by_cases here : x = a
    · -- `a` has left every other owner
      subst here
      rw [update_self]
      constructor
      · intro found
        split at found
        · cases found
        · next other => exact absurd ⟨((after x c).mp found).1, found⟩ other
      · rintro ⟨owned, -⟩
        exact absurd (Option.some.inj owned).symm same
    · rw [update_of_ne here, others, List.mem_cons, or_iff_right here, ← after x c]
      constructor
      · intro found
        split at found
        · cases found
        · exact found
      · intro found
        rw [if_neg, found]
        rintro ⟨-, points⟩
        exact here (Option.some.inj (found.symm.trans points))

end AmneziaBox.Library
