import Mathlib.Data.List.Perm.Basic
import Mathlib.Data.Nat.Basic

/-!
# Binary heaps in an array

The heap of Go's `container/heap`: a tree in an array, where the parent of position `i` is
`(i - 1) / 2` and no item comes before its parent. Pushing an item moves it up from the end;
popping moves the last item to the front and then down. Items with one key are in no
particular order, so the two sifts are kept exactly as they choose between them.
-/
namespace AmneziaBox.Library
open Array

variable {α : Type}

namespace Heap

def parent (i : Nat) : Nat := (i - 1) / 2

/-- No position among the first ones comes before its parent. -/
def OrderedTo (bound : Nat) (keys : Nat → Nat) : Prop :=
  ∀ i, 0 < i → i < bound → keys (parent i) ≤ keys i

/-- Ordered but for one position, which may come before its parent. -/
structure UpOrder (bound : Nat) (keys : Nat → Nat) (hole : Nat) : Prop where
  others : ∀ i, 0 < i → i < bound → i ≠ hole → keys (parent i) ≤ keys i
  grand : ∀ i, 0 < i → i < bound → parent i = hole → 0 < hole → keys (parent hole) ≤ keys i

/-- Ordered but for one position, which may come after its children. -/
structure DownOrder (bound : Nat) (keys : Nat → Nat) (hole : Nat) : Prop where
  others : ∀ i, 0 < i → i < bound → parent i ≠ hole → keys (parent i) ≤ keys i
  grand : ∀ i, 0 < i → i < bound → parent i = hole → 0 < hole → keys (parent hole) ≤ keys i

/-- The keys after two positions are exchanged. -/
def exchange (keys : Nat → Nat) (i j : Nat) : Nat → Nat := fun k =>
  if k = i then keys j else if k = j then keys i else keys k

theorem parent_lt {i : Nat} (positive : 0 < i) : parent i < i := by
  unfold parent
  omega

variable {bound hole : Nat} {keys : Nat → Nat}

theorem UpOrder.finish (order : UpOrder bound keys hole)
    (stop : 0 < hole → keys (parent hole) ≤ keys hole) : OrderedTo bound keys := by
  intro i positive inside
  by_cases here : i = hole
  · subst here
    exact stop positive
  · exact order.others i positive inside here

theorem UpOrder.move (order : UpOrder bound keys hole) (positive : 0 < hole) (inside : hole < bound)
    (before : keys hole < keys (parent hole)) :
    UpOrder bound (exchange keys (parent hole) hole) (parent hole) := by
  have lower := parent_lt positive
  have above : 0 < parent hole → keys (parent (parent hole)) ≤ keys (parent hole) := fun more =>
    order.others (parent hole) more (by omega) (by omega)
  constructor
  · intro i iPositive iInside notParent
    have iLower := parent_lt iPositive
    have ordered := order.others i iPositive iInside
    have grand := order.grand i iPositive iInside
    unfold exchange
    split_ifs <;> grind
  · intro i iPositive iInside child more
    have iLower := parent_lt iPositive
    have upper := parent_lt more
    have ordered := order.others i iPositive iInside
    unfold exchange
    split_ifs <;> grind

theorem DownOrder.finish (order : DownOrder bound keys hole)
    (stop : ∀ i, 0 < i → i < bound → parent i = hole → keys hole ≤ keys i) :
    OrderedTo bound keys := by
  intro i positive inside
  by_cases here : parent i = hole
  · rw [here]
    exact stop i positive inside here
  · exact order.others i positive inside here

theorem DownOrder.move {child : Nat} (order : DownOrder bound keys hole) (positive : 0 < child)
    (inside : child < bound) (below : parent child = hole) (after : keys child < keys hole)
    (least : ∀ i, 0 < i → i < bound → parent i = hole → keys child ≤ keys i) :
    DownOrder bound (exchange keys hole child) child := by
  have lower := parent_lt positive
  constructor
  · intro i iPositive iInside notBelow
    have iLower := parent_lt iPositive
    have ordered := order.others i iPositive iInside
    have grand := order.grand child positive inside below
    have smallest := least i iPositive iInside
    unfold exchange
    split_ifs <;> grind
  · intro i iPositive iInside grandchild more
    have iLower := parent_lt iPositive
    have ordered := order.others i iPositive iInside
    unfold exchange
    split_ifs <;> grind

/-! ## The sifts -/

section Sifts

variable (key : α → Nat)

def keyAt (items : Array α) (i : Nat) : Nat := (items[i]?.map key).getD 0

/-- `up` with a bound on its rounds; the position at least halves in each. -/
def up : Nat → Array α → Nat → Array α
  | 0, items, _ => items
  | rounds + 1, items, j =>
    let i := parent j
    if i = j ∨ ¬ keyAt key items j < keyAt key items i then items
    else up rounds (items.swapIfInBounds i j) i

/-- The child that `down` compares with its parent. -/
def lesserChild (items : Array α) (i n : Nat) : Nat :=
  let j1 := 2 * i + 1
  let j2 := j1 + 1
  if j2 < n ∧ keyAt key items j2 < keyAt key items j1 then j2 else j1

/-- `down` with a bound on its rounds; the position grows in each. -/
def down : Nat → Array α → Nat → Nat → Array α
  | 0, items, _, _ => items
  | rounds + 1, items, i, n =>
    if n ≤ 2 * i + 1 then items
    else
      let j := lesserChild key items i n
      if ¬ keyAt key items j < keyAt key items i then items
      else down rounds (items.swapIfInBounds i j) j n

variable {key} {items : Array α}

theorem swap_perm (i j : Nat) : (items.swapIfInBounds i j).toList.Perm items.toList := by
  unfold Array.swapIfInBounds
  split
  · split
    · exact (Array.swap_perm _ _).toList
    · exact List.Perm.refl _
  · exact List.Perm.refl _

variable {i : Nat}

theorem keyAt_swap {j : Nat} (iInside : i < items.size) (jInside : j < items.size) :
    keyAt key (items.swapIfInBounds i j) = exchange (keyAt key items) i j := by
  funext k
  unfold keyAt exchange swapIfInBounds
  rw [dif_pos iInside, dif_pos jInside, getElem?_swap]
  split_ifs <;> grind

variable (key items) in
theorem up_perm (rounds j : Nat) : (up key rounds items j).toList.Perm items.toList := by
  induction rounds generalizing items j with
  | zero => exact List.Perm.refl _
  | succ rounds ih =>
    unfold up
    dsimp only
    split
    · exact List.Perm.refl _
    · exact (ih _ _).trans (swap_perm _ _)

variable (key items) in
theorem down_perm (rounds i n : Nat) : (down key rounds items i n).toList.Perm items.toList := by
  induction rounds generalizing items i with
  | zero => exact List.Perm.refl _
  | succ rounds ih =>
    unfold down
    dsimp only
    split
    · exact List.Perm.refl _
    · split
      · exact List.Perm.refl _
      · exact (ih _ _).trans (swap_perm _ _)

variable {rounds : Nat}

theorem up_ordered {j : Nat} (enough : j ≤ rounds) (inside : j < items.size)
    (order : UpOrder items.size (keyAt key items) j) :
    OrderedTo items.size (keyAt key (up key rounds items j)) := by
  induction rounds generalizing items j with
  | zero => exact order.finish fun positive => absurd positive (by omega)
  | succ rounds ih =>
    unfold up
    dsimp only
    split
    · rename_i stop
      refine order.finish fun positive => ?_
      have lower := parent_lt positive
      omega
    · rename_i go
      obtain ⟨apart, before⟩ := not_or.mp go
      have positive : 0 < j := by
        rcases Nat.eq_zero_or_pos j with rfl | positive
        · exact absurd rfl apart
        · exact positive
      have lower := parent_lt positive
      have moved := order.move positive inside (not_not.mp before)
      have size : (items.swapIfInBounds (parent j) j).size = items.size := size_swapIfInBounds
      rw [← keyAt_swap (by omega) inside] at moved
      rw [← size] at moved ⊢
      exact ih (by omega) (by omega) moved

variable {n : Nat}

variable (key items) in
theorem lesserChild_inside (some : 2 * i + 1 < n) :
    0 < lesserChild key items i n ∧ lesserChild key items i n < n ∧
      parent (lesserChild key items i n) = i := by
  unfold lesserChild parent
  dsimp only
  split <;> omega

variable (key items) in
theorem lesserChild_least (i n child : Nat) (positive : 0 < child) (inside : child < n)
    (below : parent child = i) :
    keyAt key items (lesserChild key items i n) ≤ keyAt key items child := by
  have either : child = 2 * i + 1 ∨ child = 2 * i + 1 + 1 := by
    unfold parent at below
    omega
  unfold lesserChild
  dsimp only
  rcases either with rfl | rfl
  · split <;> omega
  · split <;> omega

/-- What lies past the bound stays. -/
theorem down_past {k : Nat} (past : n ≤ k) : (down key rounds items i n)[k]? = items[k]? := by
  induction rounds generalizing items i with
  | zero => rfl
  | succ rounds ih =>
    unfold down
    dsimp only
    split
    · rfl
    · rename_i more
      obtain ⟨positive, inside, below⟩ := lesserChild_inside key items (Nat.lt_of_not_le more)
      have lower := parent_lt positive
      split
      · rfl
      · rw [ih]
        unfold swapIfInBounds
        split
        · split
          · rw [getElem?_swap, if_neg (by omega), if_neg (by omega)]
          · rfl
        · rfl

theorem down_ordered (enough : n ≤ i + rounds) (most : n ≤ items.size)
    (order : DownOrder n (keyAt key items) i) :
    OrderedTo n (keyAt key (down key rounds items i n)) := by
  induction rounds generalizing items i with
  | zero =>
    refine order.finish fun child positive inside below => ?_
    have lower := parent_lt positive
    omega
  | succ rounds ih =>
    unfold down
    dsimp only
    split
    · rename_i leaf
      refine order.finish fun child positive inside below => ?_
      unfold parent at below
      omega
    · rename_i more
      obtain ⟨positive, inside, below⟩ := lesserChild_inside key items (Nat.lt_of_not_le more)
      have least := lesserChild_least key items i n
      split
      · rename_i stop
        refine order.finish fun child childPositive childInside childBelow => ?_
        exact le_trans (Nat.le_of_not_lt stop) (least child childPositive childInside childBelow)
      · rename_i go
        have lower := parent_lt positive
        have moved := order.move positive inside below (not_not.mp go) least
        have size : (items.swapIfInBounds i (lesserChild key items i n)).size = items.size :=
          size_swapIfInBounds
        rw [← keyAt_swap (by omega) (by omega)] at moved
        exact ih (by omega) (by omega) moved

end Sifts

end Heap

/-! ## Heaps -/

/-- An array in the order of a heap. -/
structure Heap (key : α → Nat) where
  items : Array α
  ordered : Heap.OrderedTo items.size (Heap.keyAt key items)

namespace Heap

variable {key : α → Nat}

def empty : Heap key := ⟨#[], nofun⟩

/-- The items, in the order of the array. -/
def toList (heap : Heap key) : List α := heap.items.toList

def size (heap : Heap key) : Nat := heap.items.size

variable {items : Array α} {item : α} {i : Nat}

theorem keyAt_push (inside : i < items.size) :
    keyAt key (items.push item) i = keyAt key items i := by
  unfold keyAt
  rw [getElem?_push_lt inside, getElem?_eq_getElem inside]

theorem up_size (rounds j : Nat) : (up key rounds items j).size = items.size := by
  have same := (up_perm key items rounds j).length_eq
  rwa [length_toList, length_toList] at same

theorem down_size (rounds i n : Nat) : (down key rounds items i n).size = items.size := by
  have same := (down_perm key items rounds i n).length_eq
  rwa [length_toList, length_toList] at same

variable (heap : Heap key)

theorem push_order (item : α) :
    UpOrder (heap.items.push item).size (keyAt key (heap.items.push item)) heap.items.size := by
  rw [size_push]
  constructor
  · intro i positive inside other
    have lower := parent_lt positive
    rw [keyAt_push (by omega), keyAt_push (by omega)]
    exact heap.ordered i positive (by omega)
  · intro i positive inside child more
    have lower := parent_lt positive
    omega

/-- `heap.Push`. -/
def push (heap : Heap key) (item : α) : Heap key where
  items := up key heap.items.size (heap.items.push item) heap.items.size
  ordered := by
    rw [up_size]
    exact up_ordered (Nat.le_refl _) (by simp) (heap.push_order item)

theorem push_perm (item : α) : (heap.push item).toList.Perm (item :: heap.toList) := by
  refine (up_perm key _ _ _).trans ?_
  rw [toList_push]
  exact List.perm_append_singleton _ _

theorem root_first {bound : Nat} {keys : Nat → Nat} (ordered : OrderedTo bound keys)
    (inside : i < bound) : keys 0 ≤ keys i := by
  induction i using Nat.strong_induction_on with
  | _ i ih =>
    rcases Nat.eq_zero_or_pos i with rfl | positive
    · exact Nat.le_refl _
    · have lower := parent_lt positive
      exact le_trans (ih (parent i) lower (by omega)) (ordered i positive inside)

/-- The array of `heap.Pop` before the last item is taken off. -/
def popItems (heap : Heap key) : Array α :=
  let n := heap.items.size - 1
  down key n (heap.items.swapIfInBounds 0 n) 0 n

theorem popItems_size : heap.popItems.size = heap.items.size := by
  unfold popItems
  rw [down_size, size_swapIfInBounds]

theorem popItems_perm : heap.popItems.toList.Perm heap.toList :=
  (down_perm key _ _ _ _).trans (swap_perm _ _)

theorem popItems_order :
    DownOrder (heap.items.size - 1)
      (keyAt key (heap.items.swapIfInBounds 0 (heap.items.size - 1))) 0 := by
  constructor
  · intro i positive inside below
    have lower := parent_lt positive
    have ordered := heap.ordered i positive (by omega)
    rw [keyAt_swap (by omega) (by omega)]
    unfold exchange
    rwa [if_neg below, if_neg (by omega), if_neg (by omega), if_neg (by omega)]
  · intro i positive inside below more
    exact absurd more (Nat.lt_irrefl 0)

theorem keyAt_pop (inside : i < items.size - 1) : keyAt key items.pop i = keyAt key items i := by
  unfold keyAt
  rw [getElem?_pop, if_pos inside]

/-- What is left after `heap.Pop`. -/
def rest (heap : Heap key) : Heap key where
  items := heap.popItems.pop
  ordered := by
    rw [Array.size_pop, popItems_size]
    have sifted := down_ordered (Nat.le_of_eq (Nat.zero_add _).symm)
      (by rw [Array.size_swapIfInBounds]; omega) heap.popItems_order
    intro i positive inside
    have lower := parent_lt positive
    rw [keyAt_pop (by rw [popItems_size]; omega), keyAt_pop (by rw [popItems_size]; omega)]
    exact sifted i positive inside

/-- `heap.Pop` of a heap with items. -/
def pop (heap : Heap key) : Option (α × Heap key) :=
  heap.popItems.back?.map fun item => (item, heap.rest)

variable {heap : Heap key}

theorem pop_eq_none : heap.pop = none ↔ heap.toList = [] := by
  rw [pop, Option.map_eq_none_iff, back?_eq_none_iff, ← toList_eq_nil_iff]
  constructor
  · intro empty
    exact List.perm_nil.mp (empty ▸ heap.popItems_perm.symm)
  · intro empty
    exact List.perm_nil.mp (empty ▸ heap.popItems_perm)

theorem pop_perm {left : Heap key} (popped : heap.pop = some (item, left)) :
    heap.toList.Perm (item :: left.toList) := by
  obtain ⟨last, back, same⟩ := Option.map_eq_some_iff.mp popped
  cases same
  have whole : heap.popItems = heap.popItems.pop.push item := by
    obtain ⟨front, split⟩ := back?_eq_some_iff.mp back
    rw [split, pop_push]
  refine heap.popItems_perm.symm.trans ?_
  rw [whole, toList_push]
  exact List.perm_append_singleton _ _

/-- The popped item is one that comes first. -/
theorem pop_least {left : Heap key} (popped : heap.pop = some (item, left)) {other : α}
    (member : other ∈ heap.toList) : key item ≤ key other := by
  obtain ⟨i, inside, here⟩ := List.getElem_of_mem member
  obtain ⟨last, back, same⟩ := Option.map_eq_some_iff.mp popped
  cases same
  have size : i < heap.items.size := inside
  have first := root_first heap.ordered size
  have there : keyAt key heap.items i = key other := by
    unfold keyAt
    rw [getElem?_eq_getElem size]
    exact congrArg key here
  -- the front was moved to the end, past the bound of the sift
  have moved : heap.popItems[heap.items.size - 1]? = heap.items[0]? := by
    unfold popItems
    rw [down_past (Nat.le_refl _)]
    unfold swapIfInBounds
    rw [dif_pos (by omega), dif_pos (by omega), getElem?_swap]
    grind
  have root : keyAt key heap.items 0 = key item := by
    rw [back?, popItems_size, moved] at back
    unfold keyAt
    rw [back]
    rfl
  rw [← root, ← there]
  exact first

end Heap

end AmneziaBox.Library
