import Mathlib.Data.List.Basic

/-!
# Histories

A history is a list of events, the latest first. A law relates an event to the events
before it, and a history is lawful when every event in it is.
-/
namespace AmneziaBox.Library

variable {α : Type} {law : α → List α → Prop}

/-- Every event of the history satisfies the law over its past. -/
def Always (law : α → List α → Prop) : List α → Prop
  | [] => True
  | event :: past => law event past ∧ Always law past

theorem always_iff {history : List α} :
    Always law history ↔
      ∀ later event past, history = later ++ event :: past → law event past := by
  induction history with
  | nil => simp [Always]
  | cons first rest ih =>
    rw [Always, ih]
    constructor
    · rintro ⟨head, tail⟩ later event past split
      cases later with
      | nil =>
        obtain ⟨rfl, rfl⟩ := List.cons_eq_cons.mp split
        exact head
      | cons _ later => exact tail later event past (List.cons_eq_cons.mp split).2
    · intro all
      exact ⟨all [] first rest rfl, fun later event past split =>
        all (first :: later) event past (by rw [split, List.cons_append])⟩

theorem Always.suffix {later past : List α} (always : Always law (later ++ past)) :
    Always law past := by
  induction later with
  | nil => exact always
  | cons event rest ih => exact ih always.2

end AmneziaBox.Library
