import TableauSimplex.Proofs.Tableau.Solutions

/-!
# The standard form of a program

Slacks, surpluses and artificial variables are numbered without gaps, each kind after the one before
it, in whatever order the signs of the constraints come (`Auxiliary.filterMap_assign`). So the
columns that a first tableau names for them follow the decision columns one after another
(`Tableau.columns_start`), and values of each kind, put together in the order of the columns, are a
point (`Tableau.SolvesRows`).

The constraint rows are the constraints with slacks and surpluses: a nonnegative point satisfies all
constraints exactly when these can be chosen, without artificial variables
(`Problem.satisfied_iff_exists_solvesRows`), and then in one way only
(`Problem.eq_of_solvesRows`). The objective row takes from the objective, turned so that it is
maximized, the penalty on artificial variables (`Problem.objective_row_iff`).
-/

namespace TableauSimplex

/-! ## Columns by kind -/

/-- **Every kind is numbered without gaps.** -/
theorem Auxiliary.filterMap_assign (slack surplus artificial : Nat) (signs : List Sign) :
    (assign slack surplus artificial signs).filterMap (·.slack) =
        List.range' slack (slacks signs) ∧
      (assign slack surplus artificial signs).filterMap (·.surplus) =
        List.range' surplus (surpluses signs) ∧
      (assign slack surplus artificial signs).filterMap (·.artificial) =
        List.range' artificial (artificials signs) := by
  induction signs generalizing slack surplus artificial with
  | nil => exact ⟨rfl, rfl, rfl⟩
  | cons sign rest ih =>
    cases sign <;> simp [assign, slacks, surpluses, artificials, ih, List.range'_succ]

namespace Tableau

/-- The columns of slacks, in the order of the constraints. -/
def slackIndices (t : Tableau Rat) : List Nat := t.slackCols.filterMap id

/-- The columns of surpluses, in the order of the constraints. -/
def surplusIndices (t : Tableau Rat) : List Nat := t.surplusCols.filterMap id

/-- Values of the variables of each kind, in the order of their columns, solve the constraint
rows. -/
structure SolvesRows (t : Tableau Rat) (x slacks surpluses artificials : List Rat) : Prop where
  length_decision : x.length = t.numDecision
  length_slacks : slacks.length = t.slackIndices.length
  length_surpluses : surpluses.length = t.surplusIndices.length
  length_artificials : artificials.length = t.artificialIndices.length
  holds : ∀ r ∈ t.rows,
    Scalar.dot r.coefficients (x ++ slacks ++ surpluses ++ artificials) = r.rhs

end Tableau

namespace Problem

variable {p : Problem Rat} {penalty : Rat} {i c : Nat} {v : Nat → Rat}
  {x slacks surpluses artificials : List Rat}

/-- The columns of slacks. -/
def slackColumns (p : Problem Rat) : List Nat := p.auxiliary.filterMap (·.slack)

/-- The columns of surpluses. -/
def surplusColumns (p : Problem Rat) : List Nat := p.auxiliary.filterMap (·.surplus)

/-- The columns of artificial variables. -/
def artificialColumns (p : Problem Rat) : List Nat := p.auxiliary.filterMap (·.artificial)

/-- A column that the constraints have is that of one of them. -/
theorem mem_filterMap_auxiliary {f : Auxiliary → Option Nat} :
    c ∈ p.auxiliary.filterMap f ↔ ∃ i < p.constraints.length, f (p.auxiliaryAt i) = some c := by
  rw [List.mem_filterMap]
  constructor
  · rintro ⟨a, ha, hc⟩
    obtain ⟨i, hi, rfl⟩ := List.getElem_of_mem ha
    exact ⟨i, length_auxiliary ▸ hi, by rwa [auxiliaryAt_of_lt hi]⟩
  · rintro ⟨i, hi, hc⟩
    have ha : i < p.auxiliary.length := length_auxiliary ▸ hi
    exact ⟨p.auxiliary[i], List.getElem_mem ha, by rwa [← auxiliaryAt_of_lt ha]⟩

/-- The columns of each kind are a block. -/
theorem columns_eq_range' (p : Problem Rat) :
    p.slackColumns = List.range' p.numVars (Auxiliary.slacks p.signs) ∧
      p.surplusColumns = List.range' (p.numVars + Auxiliary.slacks p.signs)
        (Auxiliary.surpluses p.signs) ∧
      p.artificialColumns = List.range'
        (p.numVars + Auxiliary.slacks p.signs + Auxiliary.surpluses p.signs)
        (Auxiliary.artificials p.signs) :=
  Auxiliary.filterMap_assign _ _ _ p.signs

/-- **The columns of a program** come in the order of their kinds. -/
theorem columns_eq (p : Problem Rat) :
    List.range p.numVars ++ p.slackColumns ++ p.surplusColumns ++ p.artificialColumns =
      List.range (p.numVars + p.numAuxiliary) := by
  obtain ⟨hslack, hsurplus, hartificial⟩ := p.columns_eq_range'
  have happend := fun n m => List.range'_append_1 (s := 0) (m := n) (n := m)
  simp only [Nat.zero_add] at happend
  rw [hslack, hsurplus, hartificial, List.range_eq_range', List.range_eq_range', happend, happend,
    happend, numAuxiliary, Auxiliary.length_auxiliaryNames]
  congr 1
  omega

/-- The indices that the first tableau keeps are the columns of the program. -/
theorem indices_start (p : Problem Rat) (penalty : Rat) :
    (Tableau.start p penalty).slackIndices = p.slackColumns ∧
      (Tableau.start p penalty).surplusIndices = p.surplusColumns ∧
      (Tableau.start p penalty).artificialIndices = p.artificialColumns.map Int.ofNat := by
  refine ⟨List.filterMap_map, List.filterMap_map, ?_⟩
  rw [artificialColumns, List.map_filterMap]
  exact List.filterMap_map

/-! ## Values by kind -/

/-- The left side of a row at the values of its columns. -/
private theorem lhs_eq_dot {r : Row Rat} {n : Nat} (h : r.width = n) (v : Nat → Rat) :
    r.lhs v = Scalar.dot r.coefficients ((List.range n).map v) := by
  rw [Scalar.dot_range h, Row.lhs, h]
  refine Finset.sum_congr rfl fun j hj => ?_
  rw [Row.vec_of_lt (h ▸ Finset.mem_range.mp hj)]

/-- The values of a point kind by kind, put together. -/
theorem map_columns (p : Problem Rat) (v : Nat → Rat) :
    p.decision v ++ p.slackColumns.map v ++ p.surplusColumns.map v ++ p.artificialColumns.map v =
      (List.range (p.numVars + p.numAuxiliary)).map v := by
  rw [← p.columns_eq]
  simp only [List.map_append, decision]

/-- A point that solves the rows does so kind by kind. -/
theorem solvesRows_of_rows (hp : p.Regular)
    (h : ∀ r ∈ (Tableau.start p penalty).rows, r.lhs v = r.rhs) :
    (Tableau.start p penalty).SolvesRows (p.decision v) (p.slackColumns.map v)
      (p.surplusColumns.map v) (p.artificialColumns.map v) := by
  obtain ⟨hslack, hsurplus, hartificial⟩ := indices_start p penalty
  refine ⟨length_decision, by rw [hslack, List.length_map], by rw [hsurplus, List.length_map],
    by rw [hartificial, List.length_map, List.length_map], fun r hr => ?_⟩
  have hwidth := (Tableau.wellShaped_start hp).width_eq r hr
  rw [Tableau.numColumns_start hp] at hwidth
  rw [p.map_columns, ← lhs_eq_dot hwidth, h r hr]

/-- The point with the given values of each kind. -/
def pointOf (x slacks surpluses artificials : List Rat) (j : Nat) : Rat :=
  (x ++ slacks ++ surpluses ++ artificials).getD j 0

/-- **Values that solve the rows kind by kind** are those of a point that solves them. -/
theorem pointOf_spec
    (h : (Tableau.start p penalty).SolvesRows x slacks surpluses artificials) :
    p.decision (pointOf x slacks surpluses artificials) = x ∧
      p.slackColumns.map (pointOf x slacks surpluses artificials) = slacks ∧
      p.surplusColumns.map (pointOf x slacks surpluses artificials) = surpluses ∧
      p.artificialColumns.map (pointOf x slacks surpluses artificials) = artificials ∧
      ∀ r : Row Rat, r.width = p.numVars + p.numAuxiliary →
        r.lhs (pointOf x slacks surpluses artificials) =
          Scalar.dot r.coefficients (x ++ slacks ++ surpluses ++ artificials) := by
  obtain ⟨hslack, hsurplus, hartificial⟩ := indices_start p penalty
  have hx : x.length = p.numVars := h.length_decision
  have hs : slacks.length = p.slackColumns.length := hslack ▸ h.length_slacks
  have he : surpluses.length = p.surplusColumns.length := hsurplus ▸ h.length_surpluses
  have ha : artificials.length = p.artificialColumns.length := by
    rw [h.length_artificials, hartificial, List.length_map]
  have hall : p.numVars + p.numAuxiliary = (x ++ slacks ++ surpluses ++ artificials).length := by
    have hlen := congrArg List.length p.columns_eq
    simp only [List.length_append, List.length_range] at hlen ⊢
    omega
  have hpoint : (List.range (p.numVars + p.numAuxiliary)).map
      (pointOf x slacks surpluses artificials) = x ++ slacks ++ surpluses ++ artificials := by
    refine List.ext_getElem (by simp [hall]) fun j _ hj => ?_
    rw [List.getElem_map, List.getElem_range, pointOf, List.getD_eq_getElem _ _ hj]
  -- Both sides are made of blocks of the same lengths.
  have hblocks := (p.map_columns _).trans hpoint
  obtain ⟨hblocks, h4⟩ := List.append_inj' hblocks (by rw [List.length_map, ha])
  obtain ⟨hblocks, h3⟩ := List.append_inj' hblocks (by rw [List.length_map, he])
  obtain ⟨h1, h2⟩ := List.append_inj' hblocks (by rw [List.length_map, hs])
  exact ⟨h1, h2, h3, h4, fun r hr => by rw [lhs_eq_dot hr, hpoint]⟩

theorem width_of_mem_rows (hp : p.Regular) {r : Row Rat}
    (hr : r ∈ (Tableau.start p penalty).rows) : r.width = p.numVars + p.numAuxiliary :=
  ((Tableau.wellShaped_start hp).width_eq r hr).trans (Tableau.numColumns_start hp)

/-- The values of the artificial variables add up to the sum over all constraints. -/
theorem artificialSum_eq (p : Problem Rat) (v : Nat → Rat) :
    p.artificialSum v = (p.artificialColumns.map v).sum := by
  have hsum : ∀ as : List Auxiliary,
      ∑ i ∈ Finset.range as.length, valueAt v (as.getD i ⟨none, none, none⟩).artificial =
        ((as.filterMap (·.artificial)).map v).sum := fun as => by
    induction as with
    | nil => rfl
    | cons a rest ih =>
      simp only [List.length_cons, Finset.sum_range_succ', List.getD_cons_succ,
        List.getD_cons_zero, ih]
      cases ha : a.artificial with
      | none => simp [ha]
      | some c => simp [ha, add_comm]
  rw [artificialSum, ← length_auxiliary]
  exact hsum p.auxiliary

section

variable (hp : p.Regular)

include hp

/-- What values solve the constraint rows, in terms of the constraints. -/
theorem rows_of_solvesRows
    (h : (Tableau.start p penalty).SolvesRows x slacks surpluses artificials) :
    ∀ r ∈ (Tableau.start p penalty).rows,
      r.lhs (pointOf x slacks surpluses artificials) = r.rhs := fun r hr => by
  rw [(pointOf_spec h).2.2.2.2 r (width_of_mem_rows hp hr)]
  exact h.holds r hr

/-- **The objective row** takes the penalty on artificial variables from the objective. -/
theorem objective_row_iff
    (h : (Tableau.start p penalty).SolvesRows x slacks surpluses artificials) (z : Rat) :
    z + Scalar.dot (Tableau.start p penalty).objective.coefficients
        (x ++ slacks ++ surpluses ++ artificials) = (Tableau.start p penalty).objective.rhs ↔
      z = Scalar.dot (Tableau.maximized p) x - penalty * artificials.sum := by
  obtain ⟨hx, -, -, hartificials, hdot⟩ := pointOf_spec h
  have hsolves : (Tableau.start p penalty).Solves (pointOf x slacks surpluses artificials) z ↔ _ :=
    start_solves_iff hp
  rw [← forall_rows_start_iff hp, Tableau.Solves] at hsolves
  have hz := and_congr_right_iff.mp hsolves (rows_of_solvesRows hp h)
  rwa [hx, gain_eq, artificialSum_eq, hartificials, hdot _ (Tableau.numColumns_start hp)] at hz

/-! ## Without artificial variables -/

/-- Without artificial variables the rows leave one value for each slack and each surplus. -/
theorem eq_of_rows (h : ∀ r ∈ (Tableau.start p penalty).rows, r.lhs v = r.rhs)
    (h0 : ∀ c ∈ p.artificialColumns, v c = 0) (hi : i < p.constraints.length) :
    ((p.auxiliaryAt i).slack = some c →
        v c = (p.constraintAt i).rhs - (p.constraintAt i).lhs (p.decision v)) ∧
      ((p.auxiliaryAt i).surplus = some c →
        v c = (p.constraintAt i).lhs (p.decision v) - (p.constraintAt i).rhs) := by
  have hrow := (forall_rows_start_iff hp).mp h i hi
  have hzero : valueAt v (p.auxiliaryAt i).artificial = 0 := by
    cases ha : (p.auxiliaryAt i).artificial with
    | none => rfl
    | some a => exact h0 a (mem_filterMap_auxiliary.mpr ⟨i, hi, ha⟩)
  rw [hzero] at hrow
  rcases auxiliaryAt_cases hi with ⟨-, s, ha⟩ | ⟨-, e, a, -, ha⟩ | ⟨-, a, ha⟩ <;>
    rw [ha] at hrow ⊢ <;> simp only [valueAt_none, valueAt_some] at hrow
  · refine ⟨?_, nofun⟩
    rintro ⟨⟩
    linarith
  · refine ⟨nofun, ?_⟩
    rintro ⟨⟩
    linarith
  · exact ⟨nofun, nofun⟩

/-- **Slacks and surpluses are unique** where there are no artificial variables. -/
theorem eq_of_solvesRows {n : Nat} {slacks' surpluses' : List Rat}
    (h : (Tableau.start p penalty).SolvesRows x slacks surpluses (List.replicate n 0))
    (h' : (Tableau.start p penalty).SolvesRows x slacks' surpluses' (List.replicate n 0)) :
    slacks = slacks' ∧ surpluses = surpluses' := by
  have hzero : ∀ {v : Nat → Rat}, p.artificialColumns.map v = List.replicate n 0 →
      ∀ c ∈ p.artificialColumns, v c = 0 := fun hv c hc =>
    List.eq_of_mem_replicate (hv ▸ List.mem_map_of_mem hc)
  obtain ⟨hx, hs, he, ha, -⟩ := pointOf_spec h
  obtain ⟨hx', hs', he', ha', -⟩ := pointOf_spec h'
  have hv := fun i c => eq_of_rows hp (i := i) (c := c) (rows_of_solvesRows hp h) (hzero ha)
  have hv' := fun i c => eq_of_rows hp (i := i) (c := c) (rows_of_solvesRows hp h') (hzero ha')
  rw [hx] at hv
  rw [hx'] at hv'
  constructor
  · rw [← hs, ← hs']
    refine List.map_congr_left fun c hc => ?_
    obtain ⟨i, hi, hslack⟩ := mem_filterMap_auxiliary.mp hc
    rw [(hv i c hi).1 hslack, (hv' i c hi).1 hslack]
  · rw [← he, ← he']
    refine List.map_congr_left fun c hc => ?_
    obtain ⟨i, hi, hsurplus⟩ := mem_filterMap_auxiliary.mp hc
    rw [(hv i c hi).2 hsurplus, (hv' i c hi).2 hsurplus]

/-- **A point satisfies all constraints** when slacks and surpluses make up for the differences. -/
theorem satisfied_iff_exists_solvesRows (hx : x.length = p.numVars) (h0 : ∀ a ∈ x, 0 ≤ a) :
    (∀ c ∈ p.constraints, c.isSatisfied x 0 = true) ↔
      ∃ slacks surpluses, (∀ a ∈ slacks ++ surpluses, 0 ≤ a) ∧
        (Tableau.start p penalty).SolvesRows x slacks surpluses
          (List.replicate (Tableau.start p penalty).artificialIndices.length 0) := by
  have hlen : (Tableau.start p penalty).artificialIndices.length = p.artificialColumns.length := by
    rw [(indices_start p penalty).2.2, List.length_map]
  have hfeasible : (∀ c ∈ p.constraints, c.isSatisfied x 0 = true) ↔ p.Feasible x := by
    simp only [Constraint.isSatisfied_zero_iff]
    exact ⟨fun h => ⟨hx, h0, h⟩, fun h => h.holds⟩
  rw [hfeasible, feasible_iff_relaxed, hlen]
  constructor
  · rintro ⟨hrelaxed, hshortfall⟩
    obtain ⟨hsolves, hnonneg⟩ := solves_extend penalty hp hrelaxed
    have h := solvesRows_of_rows hp hsolves.1
    have hmap : ∀ columns : List Nat, ∀ a ∈ columns.map (p.extend x), 0 ≤ a := by
      intro columns a ha
      obtain ⟨c, -, rfl⟩ := List.mem_map.mp ha
      exact hnonneg c
    have hzero : p.artificialColumns.map (p.extend x) =
        List.replicate p.artificialColumns.length 0 := by
      have hsum := artificialSum_extend (p := p) (x := x)
      rw [artificialSum_eq, hshortfall] at hsum
      exact List.eq_replicate_iff.mpr ⟨List.length_map _, fun a ha =>
        List.all_zero_of_le_zero_le_of_sum_eq_zero (hmap _) hsum ha⟩
    rw [decision_extend hx, hzero] at h
    refine ⟨_, _, fun a ha => ?_, h⟩
    rw [← List.map_append] at ha
    exact hmap _ a ha
  · rintro ⟨slacks, surpluses, hnonneg, h⟩
    obtain ⟨hdecision, -, -, hartificials, -⟩ := pointOf_spec h
    have hv : ∀ j, 0 ≤ pointOf x slacks surpluses
        (List.replicate p.artificialColumns.length 0) j := fun j => by
      refine getD_nonneg (fun a ha => ?_) j
      rw [List.append_assoc x, List.mem_append, List.mem_append] at ha
      rcases ha with (ha | ha) | ha
      · exact h0 a ha
      · exact hnonneg a ha
      · exact (List.eq_of_mem_replicate ha).ge
    have hsolves : (Tableau.start p penalty).Solves _ _ :=
      ⟨rows_of_solvesRows hp h, sub_add_cancel _ _⟩
    have hrelaxed := (relaxed_of_solves hp hv hsolves).1
    have hle := shortfall_le_artificialSum hp hv hsolves
    rw [artificialSum_eq, hartificials, hdecision, List.sum_replicate, smul_zero] at hle
    exact ⟨hdecision ▸ hrelaxed, le_antisymm hle shortfall_nonneg⟩

end

end Problem

/-- **The first tableau is the standard form of its program.** Whatever the signs of the constraints
and of their right sides, and in whatever order, the decision columns and the columns that the
tableau names for slacks, surpluses and artificial variables are all columns, each once and in the
order of the headers. A nonnegative point satisfies all constraints exactly when there are
nonnegative slacks and surpluses that solve the constraint rows with it and no artificial variables,
and these are unique. On all solutions of the constraint rows the objective row says that the value
is the objective, negated when it is minimized, less the penalty on artificial variables. -/
theorem ofProblem_standardForm {p : Problem Rat} (hp : p.Regular) (penalty : Rat) :
    ∃ t, Tableau.ofProblem p penalty = .ok t ∧
      (List.range p.numVars ++ t.slackIndices ++ t.surplusIndices).map Int.ofNat ++
          t.artificialIndices = (List.range t.numColumns).map Int.ofNat ∧
      t.headers = p.names ++ (numberedNames "s" t.slackIndices.length ++
        numberedNames "e" t.surplusIndices.length ++
        numberedNames "a" t.artificialIndices.length) ∧
      (∀ x : List Rat, x.length = p.numVars → (∀ a ∈ x, 0 ≤ a) →
        ((∀ c ∈ p.constraints, c.isSatisfied x 0 = true) ↔
          ∃ slacks surpluses, (∀ a ∈ slacks ++ surpluses, 0 ≤ a) ∧
            t.SolvesRows x slacks surpluses (List.replicate t.artificialIndices.length 0))) ∧
      (∀ x slacks surpluses slacks' surpluses',
        t.SolvesRows x slacks surpluses (List.replicate t.artificialIndices.length 0) →
        t.SolvesRows x slacks' surpluses' (List.replicate t.artificialIndices.length 0) →
        slacks = slacks' ∧ surpluses = surpluses') ∧
      ∀ x slacks surpluses artificials z, t.SolvesRows x slacks surpluses artificials →
        (z + Scalar.dot t.objective.coefficients (x ++ slacks ++ surpluses ++ artificials) =
            t.objective.rhs ↔
          z = Scalar.dot (Tableau.maximized p) x - penalty * artificials.sum) := by
  obtain ⟨hslack, hsurplus, hartificial⟩ := p.indices_start penalty
  refine ⟨_, Tableau.ofProblem_eq hp penalty, ?_, ?_,
    fun x => Problem.satisfied_iff_exists_solvesRows hp,
    fun _ _ _ _ _ => Problem.eq_of_solvesRows hp,
    fun _ _ _ _ z h => Problem.objective_row_iff hp h z⟩
  · rw [hslack, hsurplus, hartificial, Tableau.numColumns_start hp, ← p.columns_eq]
    simp only [List.map_append]
  · obtain ⟨hs, he, ha⟩ := p.columns_eq_range'
    rw [hslack, hsurplus, hartificial, List.length_map, hs, he, ha, List.length_range',
      List.length_range', List.length_range']
    rfl

/-- A constraint of each sign and one more slack, the first one with a negative right side. -/
def fourRows : Problem Rat where
  sense := .minimize
  names := [.text "x", .text "y"]
  objective := [3, 2]
  constraints := [⟨[1, -1], .atLeast, -1⟩, ⟨[1, 1], .atMost, 4⟩, ⟨[2, 1], .equal, 5⟩,
    ⟨[0, 1], .atMost, 3⟩]

/-- The point two, one and its value, eight. -/
theorem ofProblem_standardForm_fourRows :
    ∃ t slacks surpluses, Tableau.ofProblem fourRows 1000 = .ok t ∧
      (∀ a ∈ slacks ++ surpluses, 0 ≤ a) ∧
      t.SolvesRows [2, 1] slacks surpluses (List.replicate t.artificialIndices.length 0) ∧
      ∀ z, z + Scalar.dot t.objective.coefficients ([2, 1] ++ slacks ++ surpluses ++
          List.replicate t.artificialIndices.length 0) = t.objective.rhs ↔ z = -8 := by
  obtain ⟨t, ht, -, -, hsatisfied, -, hobjective⟩ :=
    ofProblem_standardForm (p := fourRows) (by decide +kernel) 1000
  obtain ⟨slacks, surpluses, hnonneg, hsolves⟩ :=
    (hsatisfied [2, 1] rfl (by decide +kernel)).mp (by decide +kernel)
  refine ⟨t, slacks, surpluses, ht, hnonneg, hsolves, fun z => ?_⟩
  have hz := hobjective _ _ _ _ z hsolves
  have hvalue : Scalar.dot (Tableau.maximized fourRows) [2, 1] = -8 := by decide +kernel
  rwa [List.sum_replicate, smul_zero, mul_zero, sub_zero, hvalue] at hz

end TableauSimplex
