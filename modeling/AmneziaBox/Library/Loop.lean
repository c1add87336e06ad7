import Mathlib.Data.List.Basic

/-!
# Loops over a list

A loop runs its body for each item with the item's index, and a body either hands its
state to the next item or ends the loop with a result. Two loops over one list are
compared body by body, for as long as a condition holds on the way of the first.
-/
namespace AmneziaBox.Library

inductive LoopStep (σ ρ : Type) where
  | next (state : σ)
  | stop (result : ρ)

variable {α σ τ ρ κ : Type}

/-- The loop over the items that start at an index. -/
def loop (body : Nat → α → σ → LoopStep σ ρ) (finish : σ → ρ) : Nat → List α → σ → ρ
  | _, [], state => finish state
  | index, item :: rest, state =>
    match body index item state with
    | .next state => loop body finish (index + 1) rest state
    | .stop result => result

/-- The condition holds of each item the loop comes to and the state it finds there. -/
def OnTheWay (body : Nat → α → σ → LoopStep σ ρ) (condition : α → σ → Prop) :
    Nat → List α → σ → Prop
  | _, [], _ => True
  | index, item :: rest, state =>
    condition item state ∧
      match body index item state with
      | .next state => OnTheWay body condition (index + 1) rest state
      | .stop _ => True

variable {body : Nat → α → σ → LoopStep σ ρ} {items : List α} {index : Nat} {s : σ}

theorem OnTheWay.of_forall {condition : α → σ → Prop}
    (holds : ∀ item ∈ items, ∀ s, condition item s) : OnTheWay body condition index items s := by
  induction items generalizing index s with
  | nil => trivial
  | cons item rest ih =>
    refine ⟨holds item List.mem_cons_self s, ?_⟩
    cases body index item s with
    | next t => exact ih fun other member => holds other (List.mem_cons_of_mem item member)
    | stop result => trivial

theorem OnTheWay.and {first second : α → σ → Prop} (one : OnTheWay body first index items s)
    (other : OnTheWay body second index items s) :
    OnTheWay body (fun item s => first item s ∧ second item s) index items s := by
  induction items generalizing index s with
  | nil => trivial
  | cons item rest ih =>
    refine ⟨⟨one.1, other.1⟩, ?_⟩
    have onward := one.2
    have also := other.2
    cases stepped : body index item s with
    | next t =>
      rw [stepped] at onward also
      exact ih onward also
    | stop result => trivial

/-- The second body goes on whenever the first does. Where it goes on alone, the first
loop has a result that is good with every result of the second. -/
def LoopStep.Follows (related : σ → τ → Prop) (good : ρ → κ → Prop) :
    LoopStep σ ρ → LoopStep τ κ → Prop
  | .next s, .next t => related s t
  | .next _, .stop _ => False
  | .stop result, .next _ => ∀ other, good result other
  | .stop result, .stop other => good result other

theorem loop_follows {finish : σ → ρ} {body' : Nat → α → τ → LoopStep τ κ} {finish' : τ → κ}
    {condition : α → σ → Prop} {related : σ → τ → Prop} {good : ρ → κ → Prop}
    (follows : ∀ index item s t, related s t → condition item s →
      (body index item s).Follows related good (body' index item t))
    (ends : ∀ s t, related s t → good (finish s) (finish' t)) {t : τ} (start : related s t)
    (way : OnTheWay body condition index items s) :
    good (loop body finish index items s) (loop body' finish' index items t) := by
  induction items generalizing index s t with
  | nil => exact ends s t start
  | cons item rest ih =>
    obtain ⟨here, onward⟩ := way
    have followed := follows index item s t start here
    unfold loop
    cases first : body index item s with
    | next s' =>
      rw [first] at followed onward
      cases second : body' index item t with
      | next t' =>
        rw [second] at followed
        exact ih followed onward
      | stop other =>
        rw [second] at followed
        exact followed.elim
    | stop result =>
      rw [first] at followed
      cases second : body' index item t with
      | next t' =>
        rw [second] at followed
        exact followed _
      | stop other =>
        rw [second] at followed
        exact followed

end AmneziaBox.Library
