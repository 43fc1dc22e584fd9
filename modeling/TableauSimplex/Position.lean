/-!
# Positions in a list

A position counts from the front, starting at zero. A negative position counts from the end: the
last item stands at minus one.

* `place?`: the place that a position stands for, if there is one.
* `itemAt?`: the item at a position.
-/

namespace TableauSimplex

/-- The place among `count` items that a position stands for, if there is one. -/
def place? (count : Nat) (position : Int) : Option Nat :=
  let place := if position < 0 then position + count else position
  if 0 ≤ place ∧ place < count then some place.toNat else none

/-- The item at a position. -/
def itemAt? {β : Type} (items : List β) (position : Int) : Option β :=
  (place? items.length position).bind (items[·]?)

/-- Counted from the front, a position is a place of its own. -/
theorem place?_natCast (count n : Nat) :
    place? count (n : Int) = if n < count then some n else none := by
  have h : ¬(n : Int) < 0 := by omega
  simp only [place?, if_neg h]
  by_cases hn : n < count
  · rw [if_pos hn, if_pos ⟨by omega, by omega⟩, Int.toNat_natCast]
  · rw [if_neg hn, if_neg fun hc => hn (by omega)]

/-- Counted from the front, the item at a position is the usual one. -/
theorem itemAt?_natCast {β : Type} (items : List β) (n : Nat) :
    itemAt? items (n : Int) = items[n]? := by
  rw [itemAt?, place?_natCast]
  split
  · rfl
  · rename_i h
    exact (List.getElem?_eq_none (Nat.le_of_not_lt h)).symm

end TableauSimplex
