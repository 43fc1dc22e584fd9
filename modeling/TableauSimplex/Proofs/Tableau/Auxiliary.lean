import Mathlib
import TableauSimplex.Tableau.BigM

/-!
# The layout of auxiliary columns

Slacks, surpluses and artificial variables are numbered independently in the order of the
constraints. The closed form of the numbering (`getElem_ofSigns`) counts, for each constraint, the
constraints of a kind before it. It follows that the columns lie after the decision columns and
within the tableau (`mem_columns`), and that no column belongs to two constraints
(`disjoint_columns`).
-/

namespace TableauSimplex

/-- The value at a column that may be missing, zero without one. -/
def valueAt (v : Nat → Rat) (col : Option Nat) : Rat := col.elim 0 v

@[simp] theorem valueAt_none (v : Nat → Rat) : valueAt v none = 0 := rfl

@[simp] theorem valueAt_some (v : Nat → Rat) (c : Nat) : valueAt v (some c) = v c := rfl

namespace Auxiliary

/-- The auxiliary columns of a constraint with the given sign, when the next slack, surplus and
artificial variable get the given columns. -/
def ofSign (slack surplus artificial : Nat) : Sign → Auxiliary
  | .atMost => ⟨some slack, none, none⟩
  | .atLeast => ⟨none, some surplus, some artificial⟩
  | .equal => ⟨none, none, some artificial⟩

/-- The number of slacks that constraints with the given signs get. -/
def slacks (signs : List Sign) : Nat := signs.countP (· == .atMost)

/-- The number of surpluses that constraints with the given signs get. -/
def surpluses (signs : List Sign) : Nat := signs.countP (· == .atLeast)

/-- The number of artificial variables that constraints with the given signs get. -/
def artificials (signs : List Sign) : Nat := signs.countP (· != .atMost)

/-- The auxiliary columns of one constraint. -/
def columns (a : Auxiliary) : List Nat :=
  a.slack.toList ++ a.surplus.toList ++ a.artificial.toList

variable {n : Nat} {signs : List Sign} {i k : Nat}

/-! ## The numbering -/

private theorem getElem?_assign (slack surplus artificial : Nat) (signs : List Sign) (i : Nat) :
    (assign slack surplus artificial signs)[i]? = signs[i]?.map
      (ofSign (slack + slacks (signs.take i)) (surplus + surpluses (signs.take i))
        (artificial + artificials (signs.take i))) := by
  induction signs generalizing slack surplus artificial i with
  | nil => simp [assign]
  | cons sign rest ih =>
    cases i with
    | zero => cases sign <;> simp [assign, ofSign, slacks, surpluses, artificials]
    | succ i =>
      cases sign <;>
        simp [assign, ih, slacks, surpluses, artificials, Nat.add_assoc, Nat.add_comm 1]

@[simp] theorem length_ofSigns : (ofSigns n signs).length = signs.length := by
  have h : ∀ a b c, (assign a b c signs).length = signs.length := by
    induction signs with
    | nil => exact fun _ _ _ => rfl
    | cons sign rest ih => cases sign <;> simp [assign, ih]
  exact h _ _ _

/-- **The numbering.** Each kind has a block of columns, and within its block a constraint comes
after the constraints before it. -/
theorem getElem_ofSigns (hi : i < signs.length) (ha : i < (ofSigns n signs).length) :
    (ofSigns n signs)[i] = ofSign (n + slacks (signs.take i))
      (n + slacks signs + surpluses (signs.take i))
      (n + slacks signs + surpluses signs + artificials (signs.take i)) signs[i] := by
  have h := getElem?_assign n (n + slacks signs) (n + slacks signs + surpluses signs) signs i
  rw [List.getElem?_eq_getElem hi] at h
  exact (List.getElem_eq_iff ha).mpr h

private theorem countP_take_lt {q : Sign → Bool} (hi : i < signs.length) (hik : i < k)
    (hq : q signs[i] = true) :
    (signs.take i).countP q < (signs.take k).countP q := by
  have h1 : (signs.take (i + 1)).countP q = (signs.take i).countP q + 1 := by
    rw [List.take_succ_eq_append_getElem hi, List.countP_append]
    simp [hq]
  have h2 : (signs.take (i + 1)).countP q ≤ (signs.take k).countP q :=
    (List.take_prefix_take_left (by omega)).sublist.countP_le
  omega

private theorem countP_take_lt_length {q : Sign → Bool} (hi : i < signs.length)
    (hq : q signs[i] = true) : (signs.take i).countP q < signs.countP q := by
  have h := countP_take_lt hi hi hq
  rwa [List.take_length] at h

/-! ## Disjointness -/

/-- A column of a constraint lies in the block of its kind, at the place that counts the
constraints of the kind before it. -/
private theorem mem_columns_cases {c : Nat} (hi : i < signs.length)
    (ha : i < (ofSigns n signs).length) (hc : c ∈ (ofSigns n signs)[i].columns) :
    (signs[i] = .atMost ∧ c = n + slacks (signs.take i) ∧
        slacks (signs.take i) < slacks signs) ∨
      (signs[i] = .atLeast ∧ c = n + slacks signs + surpluses (signs.take i) ∧
        surpluses (signs.take i) < surpluses signs) ∨
      (signs[i] ≠ .atMost ∧ c = n + slacks signs + surpluses signs + artificials (signs.take i) ∧
        artificials (signs.take i) < artificials signs) := by
  have h := fun q => countP_take_lt_length (q := q) hi
  rw [getElem_ofSigns hi ha] at hc
  unfold slacks surpluses artificials at *
  cases hs : signs[i] with
  | atMost =>
    have h1 := h (· == .atMost) (by rw [hs]; rfl)
    simp only [hs, ofSign, columns] at hc
    simp at hc
    exact .inl ⟨rfl, hc, h1⟩
  | atLeast =>
    have h1 := h (· == .atLeast) (by rw [hs]; rfl)
    have h2 := h (· != .atMost) (by rw [hs]; rfl)
    simp only [hs, ofSign, columns] at hc
    simp at hc
    rcases hc with hc | hc
    · exact .inr (.inl ⟨rfl, hc, h1⟩)
    · exact .inr (.inr ⟨by decide, hc, h2⟩)
  | equal =>
    have h2 := h (· != .atMost) (by rw [hs]; rfl)
    simp only [hs, ofSign, columns] at hc
    simp at hc
    exact .inr (.inr ⟨by decide, hc, h2⟩)

/-- Auxiliary columns lie after the decision columns and within the tableau. -/
theorem mem_columns {c : Nat} (hi : i < signs.length) (ha : i < (ofSigns n signs).length)
    (hc : c ∈ (ofSigns n signs)[i].columns) :
    n ≤ c ∧ c < n + (slacks signs + surpluses signs + artificials signs) := by
  rcases mem_columns_cases hi ha hc with ⟨-, h⟩ | ⟨-, h⟩ | ⟨-, h⟩ <;> omega

private theorem not_mem_columns {c : Nat} (hik : i < k) (hi : i < signs.length)
    (hk : k < signs.length) (hai : i < (ofSigns n signs).length)
    (hak : k < (ofSigns n signs).length) (hc : c ∈ (ofSigns n signs)[i].columns)
    (hc' : c ∈ (ofSigns n signs)[k].columns) : False := by
  have h := fun q => countP_take_lt (q := q) hi hik
  have hi' := mem_columns_cases hi hai hc
  have hk' := mem_columns_cases hk hak hc'
  unfold slacks surpluses artificials at *
  rcases hi' with ⟨hs, hi'⟩ | ⟨hs, hi'⟩ | ⟨hs, hi'⟩
  · have h1 := h (· == .atMost) (by rw [hs]; rfl)
    rcases hk' with ⟨-, hk'⟩ | ⟨-, hk'⟩ | ⟨-, hk'⟩ <;> omega
  · have h1 := h (· == .atLeast) (by rw [hs]; rfl)
    rcases hk' with ⟨-, hk'⟩ | ⟨-, hk'⟩ | ⟨-, hk'⟩ <;> omega
  · have h1 := h (· != .atMost) (by simpa using hs)
    rcases hk' with ⟨-, hk'⟩ | ⟨-, hk'⟩ | ⟨-, hk'⟩ <;> omega

/-- **No column belongs to two constraints.** -/
theorem disjoint_columns {c : Nat} (hik : i ≠ k) (hi : i < signs.length) (hk : k < signs.length)
    (hai : i < (ofSigns n signs).length) (hak : k < (ofSigns n signs).length)
    (hc : c ∈ (ofSigns n signs)[i].columns) : c ∉ (ofSigns n signs)[k].columns := by
  intro hc'
  rcases Nat.lt_or_gt_of_ne hik with h | h
  · exact not_mem_columns h hi hk hai hak hc hc'
  · exact not_mem_columns h hk hi hak hai hc' hc

/-- The columns of a constraint by its sign. The surplus and the artificial variable of one
constraint are different columns. -/
theorem ofSigns_cases (hi : i < signs.length) (ha : i < (ofSigns n signs).length) :
    (signs[i] = .atMost ∧ ∃ s, (ofSigns n signs)[i] = ⟨some s, none, none⟩) ∨
      (signs[i] = .atLeast ∧ ∃ e a, e ≠ a ∧ (ofSigns n signs)[i] = ⟨none, some e, some a⟩) ∨
      (signs[i] = .equal ∧ ∃ a, (ofSigns n signs)[i] = ⟨none, none, some a⟩) := by
  rw [getElem_ofSigns hi ha]
  cases hs : signs[i] with
  | atMost => exact .inl ⟨rfl, _, rfl⟩
  | atLeast =>
    have h1 : surpluses (signs.take i) < surpluses signs :=
      countP_take_lt_length hi (by rw [hs]; rfl)
    exact .inr (.inl ⟨rfl, _, _, by omega, rfl⟩)
  | equal => exact .inr (.inr ⟨rfl, _, rfl⟩)

theorem length_auxiliaryNames :
    (auxiliaryNames signs).length = slacks signs + surpluses signs + artificials signs := by
  simp [auxiliaryNames, numberedNames, slacks, surpluses, artificials, Nat.add_assoc]

/-! ## Columns and coefficients -/

theorem mem_columns_of_slack {a : Auxiliary} {c : Nat} (h : a.slack = some c) : c ∈ a.columns := by
  simp [columns, h]

theorem mem_columns_of_surplus {a : Auxiliary} {c : Nat} (h : a.surplus = some c) :
    c ∈ a.columns := by
  simp [columns, h]

theorem mem_columns_of_artificial {a : Auxiliary} {c : Nat} (h : a.artificial = some c) :
    c ∈ a.columns := by
  simp [columns, h]

theorem coefficient_eq_zero {a : Auxiliary} {c : Nat} (h : c ∉ a.columns) :
    (a.coefficient c : Rat) = 0 := by
  simp only [columns, List.mem_append, Option.mem_toList, not_or] at h
  obtain ⟨⟨hs, he⟩, ha⟩ := h
  simp only [coefficient]
  rw [if_neg hs, if_neg he, if_neg ha]

end Auxiliary

end TableauSimplex
