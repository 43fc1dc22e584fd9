import Mathlib.Order.Lattice
import TableauSimplex.Sorting.Insertion

/-!
# What sorting by insertion does

Sorting keeps the elements of a list (`insertionSort_perm`). Where the test compares elements by a
key, it puts the keys in order (`insertionSort_pairwise`).
-/

namespace TableauSimplex.Sorting

variable {β : Type} {before : β → β → Bool}

theorem insertSorted_perm (x : β) (xs : List β) : (insertSorted before x xs).Perm (x :: xs) := by
  induction xs with
  | nil => exact List.Perm.refl _
  | cons y rest ih =>
    rw [insertSorted]
    split
    · exact (ih.cons y).trans (List.Perm.swap x y rest)
    · exact List.Perm.refl _

/-- **Sorting keeps the elements.** -/
theorem insertionSort_perm (xs : List β) : (insertionSort before xs).Perm xs := by
  induction xs with
  | nil => exact List.Perm.refl _
  | cons x rest ih => exact (insertSorted_perm x _).trans (ih.cons x)

section

variable {γ : Type} [LinearOrder γ] {key : β → γ} (h : ∀ x y, before x y = true ↔ key x < key y)

include h

theorem insertSorted_pairwise {x : β} {xs : List β} (hxs : xs.Pairwise fun y z => key y ≤ key z) :
    (insertSorted before x xs).Pairwise fun y z => key y ≤ key z := by
  induction xs with
  | nil => exact List.pairwise_singleton _ _
  | cons y rest ih =>
    obtain ⟨hy, hrest⟩ := List.pairwise_cons.mp hxs
    unfold insertSorted
    by_cases hbefore : before y x = true
    · rw [if_pos hbefore]
      refine List.pairwise_cons.mpr ⟨fun z hz => ?_, ih hrest⟩
      rcases List.mem_cons.mp ((insertSorted_perm x rest).mem_iff.mp hz) with rfl | hz
      · exact ((h y z).mp hbefore).le
      · exact hy z hz
    · have hxy : key x ≤ key y := not_lt.mp fun hlt => hbefore ((h y x).mpr hlt)
      rw [if_neg hbefore]
      refine List.pairwise_cons.mpr ⟨fun z hz => ?_, hxs⟩
      rcases List.mem_cons.mp hz with rfl | hz
      · exact hxy
      · exact hxy.trans (hy z hz)

/-- **Sorting puts the keys in order.** -/
theorem insertionSort_pairwise (xs : List β) :
    (insertionSort before xs).Pairwise fun x y => key x ≤ key y := by
  induction xs with
  | nil => exact List.Pairwise.nil
  | cons x rest ih => exact insertSorted_pairwise h ih

end

end TableauSimplex.Sorting
