import Mathlib.Data.List.Basic

/-!
# Machines

A machine is a partial step function: an event is possible in a state, and then leads
to one state, or it is not. What may happen in any order is left to the list of
events. An invariant of the step is an invariant of every run; a run may also be
assumed to keep a condition on each event and the state it happens in.
-/
namespace AmneziaBox.Library

variable {σ ε : Type} {step : σ → ε → Option σ} {s t u : σ}

/-- The state after the events, if each is possible in its turn. -/
def run (step : σ → ε → Option σ) : σ → List ε → Option σ
  | s, [] => some s
  | s, event :: rest => (step s event).bind fun next => run step next rest

/-- Every event of the run satisfies the condition in the state it happens in. -/
def Along (step : σ → ε → Option σ) (condition : σ → ε → Prop) : σ → List ε → Prop
  | _, [] => True
  | s, event :: rest =>
    condition s event ∧ ∀ next, step s event = some next → Along step condition next rest

/-- A run can be checked event by event. -/
instance decidableAlong {condition : σ → ε → Prop} [∀ s event, Decidable (condition s event)] :
    ∀ s events, Decidable (Along step condition s events)
  | _, [] => isTrue trivial
  | s, event :: rest =>
    match possible : step s event with
    | none =>
      decidable_of_iff (condition s event)
        ⟨fun here => ⟨here, fun _ stepped => nomatch possible.symm.trans stepped⟩, And.left⟩
    | some next =>
      have : Decidable (Along step condition next rest) := decidableAlong next rest
      decidable_of_iff (condition s event ∧ Along step condition next rest)
        ⟨fun ⟨here, onward⟩ => ⟨here, fun _ stepped =>
            Option.some.inj (possible.symm.trans stepped) ▸ onward⟩,
          fun along => ⟨along.1, along.2 next possible⟩⟩

variable {events : List ε}

theorem Along.and {first second : σ → ε → Prop} (one : Along step first s events)
    (two : Along step second s events) :
    Along step (fun s event => first s event ∧ second s event) s events := by
  induction events generalizing s with
  | nil => trivial
  | cons event rest ih =>
    exact ⟨⟨one.1, two.1⟩, fun next stepped => ih (one.2 next stepped) (two.2 next stepped)⟩

theorem run_cons {event : ε} {rest : List ε} :
    run step s (event :: rest) = some t ↔
      ∃ next, step s event = some next ∧ run step next rest = some t := by
  rw [run, Option.bind_eq_some_iff]

theorem run_append {first second : List ε} :
    run step s (first ++ second) = some u ↔
      ∃ t, run step s first = some t ∧ run step t second = some u := by
  induction first generalizing s with
  | nil => simp [run]
  | cons event rest ih =>
    rw [List.cons_append, run_cons]
    constructor
    · rintro ⟨next, stepped, ran⟩
      obtain ⟨t, there, onward⟩ := ih.mp ran
      exact ⟨t, run_cons.mpr ⟨next, stepped, there⟩, onward⟩
    · rintro ⟨t, there, onward⟩
      obtain ⟨next, stepped, ran⟩ := run_cons.mp there
      exact ⟨next, stepped, ih.mpr ⟨t, ran, onward⟩⟩

variable {invariant : σ → Prop}

/-- The induction over a run whose events keep a condition. -/
theorem run_invariant_along {condition : σ → ε → Prop}
    (preserved : ∀ s event t, invariant s → condition s event → step s event = some t → invariant t)
    (start : invariant s) (along : Along step condition s events)
    (ran : run step s events = some t) : invariant t := by
  induction events generalizing s with
  | nil =>
    cases ran
    exact start
  | cons event rest ih =>
    obtain ⟨next, stepped, onward⟩ := run_cons.mp ran
    exact ih (preserved s event next start along.1 stepped) (along.2 next stepped) onward

/-- Every state of the run, the first and the last included, satisfies the condition. -/
def Throughout (step : σ → ε → Option σ) (condition : σ → Prop) : σ → List ε → Prop
  | s, [] => condition s
  | s, event :: rest =>
    condition s ∧ ∀ next, step s event = some next → Throughout step condition next rest

theorem Throughout.here {condition : σ → Prop} (always : Throughout step condition s events) :
    condition s := by
  cases events with
  | nil => exact always
  | cons => exact always.1

theorem run_invariant (preserved : ∀ s event t, invariant s → step s event = some t → invariant t)
    (start : invariant s) (ran : run step s events = some t) : invariant t := by
  induction events generalizing s with
  | nil =>
    cases ran
    exact start
  | cons event rest ih =>
    obtain ⟨next, stepped, onward⟩ := run_cons.mp ran
    exact ih (preserved s event next start stepped) onward

end AmneziaBox.Library
