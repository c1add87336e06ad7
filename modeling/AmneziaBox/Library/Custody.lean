import Mathlib.Logic.Function.Basic

/-!
# Custody

Tokens are issued, pass from hand to hand, and are settled once. A hand holds at most one
token. Whatever happens to a token is one of three moves, and each of them leaves every open
token in exactly one hand.
-/
namespace AmneziaBox.Library
open Function

variable {ι κ : Type} {holds : ι → Option κ} {issued settled : κ → Prop}
  {i j : ι} {k : κ}

/-- Every token that was issued is settled or in exactly one hand, and not both. -/
structure Custody (holds : ι → Option κ) (issued settled : κ → Prop) : Prop where
  alone : ∀ i j k, holds i = some k → holds j = some k → i = j
  pending : ∀ i k, holds i = some k → issued k ∧ ¬ settled k
  known : ∀ k, settled k → issued k
  covered : ∀ k, issued k → settled k ∨ ∃ i, holds i = some k

namespace Custody

theorem congr (custody : Custody holds issued settled) {issued' settled' : κ → Prop}
    (sameIssued : ∀ k, issued' k ↔ issued k) (sameSettled : ∀ k, settled' k ↔ settled k) :
    Custody holds issued' settled' := by
  obtain rfl : issued' = issued := funext fun k => propext (sameIssued k)
  obtain rfl : settled' = settled := funext fun k => propext (sameSettled k)
  exact custody

variable [DecidableEq ι]

section
variable (custody : Custody holds issued settled)
include custody

/-- A new token is put into an empty hand. -/
theorem issue (empty : holds i = none) (new : ¬ issued k) :
    Custody (update holds i (some k)) (fun x => issued x ∨ x = k) settled where
  alone a b x first second := by
    rw [update_apply] at first second
    split at first <;> split at second
    · next atA atB => rw [atA, atB]
    · cases first
      exact absurd (custody.pending b k second).1 new
    · cases second
      exact absurd (custody.pending a k first).1 new
    · exact custody.alone a b x first second
  pending a x here := by
    rw [update_apply] at here
    split at here
    · cases here
      exact ⟨.inr rfl, fun done => new (custody.known k done)⟩
    · exact ⟨.inl (custody.pending a x here).1, (custody.pending a x here).2⟩
  known x done := .inl (custody.known x done)
  covered x out := by
    rcases out with before | rfl
    · refine (custody.covered x before).imp_right fun ⟨a, here⟩ => ⟨a, ?_⟩
      have other : a ≠ i := by
        rintro rfl
        cases empty.symm.trans here
      rw [update_of_ne other]
      exact here
    · exact .inr ⟨i, update_self ..⟩

/-- A token passes into another hand. -/
theorem pass (here : holds i = some k) (empty : holds j = none) :
    Custody (update (update holds i none) j (some k)) issued settled := by
  have apart : j ≠ i := by
    rintro rfl
    cases empty.symm.trans here
  have before : ∀ a x, update (update holds i none) j (some k) a = some x →
      a = j ∧ x = k ∨ a ≠ j ∧ a ≠ i ∧ holds a = some x := by
    intro a x now
    rw [update_apply] at now
    split at now
    · next same => exact .inl ⟨same, (Option.some.inj now).symm⟩
    · next other =>
      rw [update_apply] at now
      split at now
      · cases now
      · next different => exact .inr ⟨other, different, now⟩
  refine ⟨fun a b x first second => ?_, fun a x now => ?_, custody.known, fun x out => ?_⟩
  · rcases before a x first with ⟨rfl, rfl⟩ | ⟨-, notA, heldA⟩ <;>
      rcases before b x second with ⟨rfl, equal⟩ | ⟨-, notB, heldB⟩
    · rfl
    · exact absurd (custody.alone b i _ heldB here) notB
    · exact absurd (custody.alone a i x heldA (equal ▸ here)) notA
    · exact custody.alone a b x heldA heldB
  · rcases before a x now with ⟨-, rfl⟩ | ⟨-, -, held⟩
    · exact custody.pending i x here
    · exact custody.pending a x held
  · refine (custody.covered x out).imp_right fun ⟨a, held⟩ => ?_
    by_cases same : a = i
    · rw [same, here] at held
      cases held
      exact ⟨j, update_self ..⟩
    · refine ⟨a, ?_⟩
      have other : a ≠ j := by
        rintro rfl
        cases empty.symm.trans held
      rw [update_of_ne other, update_of_ne same]
      exact held

/-- A token is settled by the hand that holds it. -/
theorem settle (here : holds i = some k) :
    Custody (update holds i none) issued (fun x => settled x ∨ x = k) := by
  have before : ∀ a x, update holds i none a = some x → a ≠ i ∧ holds a = some x := by
    intro a x now
    rw [update_apply] at now
    split at now
    · cases now
    · next other => exact ⟨other, now⟩
  refine ⟨fun a b x first second => ?_, fun a x now => ?_, fun x done => ?_, fun x out => ?_⟩
  · exact custody.alone a b x (before a x first).2 (before b x second).2
  · obtain ⟨other, held⟩ := before a x now
    refine ⟨(custody.pending a x held).1, fun done => ?_⟩
    rcases done with done | rfl
    · exact (custody.pending a x held).2 done
    · exact other (custody.alone a i x held here)
  · rcases done with done | rfl
    · exact custody.known x done
    · exact (custody.pending i x here).1
  · rcases custody.covered x out with done | ⟨a, held⟩
    · exact .inl (.inl done)
    · by_cases same : a = i
      · rw [same, here] at held
        exact .inl (.inr (Option.some.inj held).symm)
      · exact .inr ⟨a, by rw [update_of_ne same]; exact held⟩

end

end Custody

end AmneziaBox.Library
