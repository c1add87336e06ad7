import Mathlib.Data.List.Basic

/-!
# Three-valued verdicts

What is known about a Boolean while some of its inputs are still open: `no` and
`yes` are final, `maybe` waits for the rest. The connectives are Kleene's strong
ones. A verdict is compared with the Boolean it stands for from two sides:
`Admits` says it is never `no` about a true value, `Grants` that it is never
`yes` about a false one. Negation exchanges the two sides, conjunction and
disjunction keep each of them, so an approximation of a formula follows from
one-sided facts about its leaves, each on the side its sign asks for; and of those
only the leaves an evaluation from the left comes to (`upTo`).
-/
namespace AmneziaBox.Library

theorem any_congr_mem {α : Type} {p q : α → Bool} :
    ∀ {l : List α}, (∀ x ∈ l, p x = q x) → l.any p = l.any q
  | [], _ => rfl
  | x :: rest, h => by
    rw [List.any_cons, List.any_cons, h x (by simp),
      any_congr_mem fun y member => h y (by simp [member])]

theorem all_congr_mem {α : Type} {p q : α → Bool} :
    ∀ {l : List α}, (∀ x ∈ l, p x = q x) → l.all p = l.all q
  | [], _ => rfl
  | x :: rest, h => by
    rw [List.all_cons, List.all_cons, h x (by simp),
      all_congr_mem fun y member => h y (by simp [member])]

/-- The elements a loop looks at that ends after the first on which `stop` holds. -/
def upTo {α : Type} (stop : α → Bool) : List α → List α
  | [] => []
  | x :: rest => x :: if stop x then [] else upTo stop rest

theorem forall_upTo_cons {α : Type} {stop : α → Bool} {p : α → Prop} {x : α} {rest : List α} :
    (∀ y ∈ upTo stop (x :: rest), p y) ↔
      p x ∧ (stop x = false → ∀ y ∈ upTo stop rest, p y) := by
  rw [upTo, List.forall_mem_cons]
  cases stop x <;> simp

theorem mem_of_mem_upTo {α : Type} {stop : α → Bool} {x : α} :
    ∀ {l : List α}, x ∈ upTo stop l → x ∈ l
  | [], member => member
  | y :: rest, member => by
    rw [upTo, List.mem_cons] at member
    rcases member with rfl | later
    · exact List.mem_cons_self
    · refine List.mem_cons_of_mem y (mem_of_mem_upTo (?_ : x ∈ upTo stop rest))
      cases ends : stop y with
      | true => rw [ends] at later; cases later
      | false => rw [ends] at later; exact later

inductive Verdict where
  | no | maybe | yes
  deriving DecidableEq, Repr

namespace Verdict

def ofBool : Bool → Verdict
  | true => yes
  | false => no

def not : Verdict → Verdict
  | no => yes
  | maybe => maybe
  | yes => no

def negateIf (invert : Bool) (verdict : Verdict) : Verdict :=
  if invert then verdict.not else verdict

def and : Verdict → Verdict → Verdict
  | no, _ => no
  | _, no => no
  | yes, yes => yes
  | _, _ => maybe

def or : Verdict → Verdict → Verdict
  | yes, _ => yes
  | _, yes => yes
  | no, no => no
  | _, _ => maybe

def all {α : Type} (f : α → Verdict) : List α → Verdict
  | [] => yes
  | x :: rest => (f x).and (all f rest)

def any {α : Type} (f : α → Verdict) : List α → Verdict
  | [] => no
  | x :: rest => (f x).or (any f rest)

section Connectives
variable {v w : Verdict}

theorem and_eq_no : v.and w = no ↔ v = no ∨ w = no := by
  cases v <;> cases w <;> decide

theorem and_eq_yes : v.and w = yes ↔ v = yes ∧ w = yes := by
  cases v <;> cases w <;> decide

theorem and_eq_maybe : v.and w = maybe ↔ v = maybe ∧ w ≠ no ∨ v = yes ∧ w = maybe := by
  cases v <;> cases w <;> decide

@[simp] theorem no_and : no.and w = no := by cases w <;> rfl

@[simp] theorem no_or : no.or w = w := by cases w <;> rfl

@[simp] theorem yes_or : yes.or w = yes := by cases w <;> rfl

theorem or_eq_no : v.or w = no ↔ v = no ∧ w = no := by
  cases v <;> cases w <;> decide

theorem or_eq_yes : v.or w = yes ↔ v = yes ∨ w = yes := by
  cases v <;> cases w <;> decide

end Connectives

variable {value : Bool}

@[simp] theorem ofBool_eq_no : ofBool value = no ↔ value = false := by
  cases value <;> decide

theorem negateIf_ofBool (invert value : Bool) :
    (ofBool value).negateIf invert = ofBool (value ^^ invert) := by
  cases invert <;> cases value <;> rfl

variable {α : Type} {f : α → Verdict} {g : α → Bool}

theorem all_ofBool :
    ∀ {l : List α}, (∀ x ∈ l, f x = ofBool (g x)) → all f l = ofBool (l.all g)
  | [], _ => rfl
  | x :: rest, h => by
    rw [all, h x (by simp), all_ofBool fun y member => h y (by simp [member]), List.all_cons]
    cases g x <;> cases rest.all g <;> rfl

theorem any_ofBool :
    ∀ {l : List α}, (∀ x ∈ l, f x = ofBool (g x)) → any f l = ofBool (l.any g)
  | [], _ => rfl
  | x :: rest, h => by
    rw [any, h x (by simp), any_ofBool fun y member => h y (by simp [member]), List.any_cons]
    cases g x <;> cases rest.any g <;> rfl

theorem any_map {β : Type} (f : β → Verdict) (g : α → β) :
    ∀ l : List α, any f (l.map g) = any (fun x => f (g x)) l
  | [] => rfl
  | x :: rest => congrArg (or (f (g x))) (any_map f g rest)

/-- Elements behind the first `yes` do not matter. -/
theorem any_congr {g : α → Verdict} :
    ∀ {l : List α}, (∀ x ∈ upTo (fun x => f x = yes) l, f x = g x) → any f l = any g l
  | [], _ => rfl
  | x :: rest, h => by
    obtain ⟨first, later⟩ := forall_upTo_cons.mp h
    rw [any, any, ← first]
    by_cases ends : f x = yes
    · rw [ends, yes_or, yes_or]
    · rw [any_congr (later (by simpa using ends))]

/-- Elements behind the first `no` do not matter. -/
theorem all_congr {g : α → Verdict} :
    ∀ {l : List α}, (∀ x ∈ upTo (fun x => f x = no) l, f x = g x) → all f l = all g l
  | [], _ => rfl
  | x :: rest, h => by
    obtain ⟨first, later⟩ := forall_upTo_cons.mp h
    rw [all, all, ← first]
    by_cases ends : f x = no
    · rw [ends, no_and, no_and]
    · rw [all_congr (later (by simpa using ends))]

/-- Never `no` about a true value. -/
def Admits (verdict : Verdict) (value : Bool) : Prop := verdict = no → value = false

/-- Never `yes` about a false value. -/
def Grants (verdict : Verdict) (value : Bool) : Prop := verdict = yes → value = true

/-- The side a leaf is needed on: `Admits` under an even number of negations,
`Grants` under an odd one. -/
def Bounds (positive : Bool) (verdict : Verdict) (value : Bool) : Prop :=
  if positive then verdict.Admits value else verdict.Grants value

@[simp] theorem bounds_true (verdict : Verdict) (value : Bool) :
    Bounds true verdict value ↔ verdict.Admits value := Iff.rfl

@[simp] theorem bounds_false (verdict : Verdict) (value : Bool) :
    Bounds false verdict value ↔ verdict.Grants value := Iff.rfl

variable {positive : Bool}

theorem bounds_not {verdict : Verdict} (h : Bounds (!positive) verdict value) :
    Bounds positive verdict.not (!value) := by
  cases positive <;> cases verdict <;> simp_all [Admits, Grants, not]

theorem bounds_negateIf {invert : Bool} {verdict : Verdict}
    (h : Bounds (positive ^^ invert) verdict value) :
    Bounds positive (verdict.negateIf invert) (value ^^ invert) := by
  cases invert with
  | false => simpa [negateIf] using h
  | true => simpa [negateIf] using bounds_not (by simpa using h)

/-- What comes after a `no` is not asked for. -/
theorem bounds_and {v w : Verdict} {a b : Bool} (hv : Bounds positive v a)
    (hw : v ≠ no → Bounds positive w b) : Bounds positive (v.and w) (a && b) := by
  cases positive <;> cases v <;> cases w <;> simp_all [Admits, Grants, and]

/-- What comes after a `yes` is not asked for. -/
theorem bounds_or {v w : Verdict} {a b : Bool} (hv : Bounds positive v a)
    (hw : v ≠ yes → Bounds positive w b) : Bounds positive (v.or w) (a || b) := by
  cases positive <;> cases v <;> cases w <;> simp_all [Admits, Grants, or]

theorem bounds_all :
    ∀ {l : List α}, (∀ x ∈ upTo (fun x => f x = no) l, Bounds positive (f x) (g x)) →
      Bounds positive (all f l) (l.all g)
  | [], _ => by cases positive <;> simp [Admits, Grants, all]
  | x :: rest, h => by
    obtain ⟨first, later⟩ := forall_upTo_cons.mp h
    rw [List.all_cons]
    exact bounds_and first fun goesOn => bounds_all (later (by simpa using goesOn))

theorem bounds_any :
    ∀ {l : List α}, (∀ x ∈ upTo (fun x => f x = yes) l, Bounds positive (f x) (g x)) →
      Bounds positive (any f l) (l.any g)
  | [], _ => by cases positive <;> simp [Admits, Grants, any]
  | x :: rest, h => by
    obtain ⟨first, later⟩ := forall_upTo_cons.mp h
    rw [List.any_cons]
    exact bounds_or first fun goesOn => bounds_any (later (by simpa using goesOn))

end Verdict
end AmneziaBox.Library
