import TableauSimplex.Proofs.Except
import TableauSimplex.Proofs.Problem
import TableauSimplex.Proofs.Tableau.Auxiliary
import TableauSimplex.Proofs.Tableau.Canonical

/-!
# The first tableau and its program

A regular program always has a first tableau (`ofProblem_eq`).

* `lhs_rowOf`: its constraint rows are the constraints with their auxiliary variables.
* `vec_objective_start`: its objective row is the cost row with every penalty put in and eliminated.
* `canonical_start`: it is canonical.
-/

namespace TableauSimplex

namespace Problem

variable (p : Problem Rat)

/-- The signs of the constraints. -/
def signs : List Sign := p.constraints.map (·.sign)

/-- The number of auxiliary columns. -/
def numAuxiliary : Nat := (auxiliaryNames p.signs).length

/-- The auxiliary columns of each constraint. -/
def auxiliary : List Auxiliary := Auxiliary.ofSigns p.numVars p.signs

/-- The auxiliary columns of a constraint by its number. -/
def auxiliaryAt (i : Nat) : Auxiliary := p.auxiliary.getD i ⟨none, none, none⟩

/-- The row of a constraint by its number. -/
def rowOf (i : Nat) : Row Rat :=
  ⟨(p.constraintAt i).coefficients ++
    (List.range p.numAuxiliary).map fun k => (p.auxiliaryAt i).coefficient (p.numVars + k),
    (p.constraintAt i).rhs⟩

/-- The constraint rows of the first tableau. -/
def startRows : List (Row Rat) := (List.range p.constraints.length).map p.rowOf

/-- The sum of all artificial variables at a point. -/
def artificialSum (v : Nat → Rat) : Rat :=
  ∑ i ∈ Finset.range p.constraints.length, valueAt v (p.auxiliaryAt i).artificial

/-- The decision variables of a point. -/
def decision (v : Nat → Rat) : List Rat := (List.range p.numVars).map v

variable {p} {i k : Nat} {v : Nat → Rat}

@[simp] theorem length_decision : (p.decision v).length = p.numVars := by simp [decision]

@[simp] theorem length_signs : p.signs.length = p.constraints.length := by simp [signs]

@[simp] theorem length_auxiliary : p.auxiliary.length = p.constraints.length := by
  rw [auxiliary, Auxiliary.length_ofSigns, length_signs]

theorem auxiliaryAt_of_lt (h : i < p.auxiliary.length) : p.auxiliaryAt i = p.auxiliary[i] :=
  List.getD_eq_getElem _ _ h

/-- The auxiliary columns of a constraint by its sign. -/
theorem auxiliaryAt_cases (hi : i < p.constraints.length) :
    ((p.constraintAt i).sign = .atMost ∧ ∃ s, p.auxiliaryAt i = ⟨some s, none, none⟩) ∨
      ((p.constraintAt i).sign = .atLeast ∧
        ∃ e a, e ≠ a ∧ p.auxiliaryAt i = ⟨none, some e, some a⟩) ∨
      ((p.constraintAt i).sign = .equal ∧ ∃ a, p.auxiliaryAt i = ⟨none, none, some a⟩) := by
  have hs : i < p.signs.length := length_signs ▸ hi
  have ha : i < p.auxiliary.length := length_auxiliary ▸ hi
  have h := Auxiliary.ofSigns_cases (n := p.numVars) hs ha
  have hsign : p.signs[i] = p.constraints[i].sign := List.getElem_map ..
  rw [hsign] at h
  rw [auxiliaryAt_of_lt ha, constraintAt_of_lt hi]
  exact h

/-- A constraint counts its slack and its artificial variable once and its surplus against it. The
artificial variable is none of the other two. -/
theorem coefficient_auxiliaryAt (hi : i < p.constraints.length) {c : Nat} :
    ((p.auxiliaryAt i).slack = some c → ((p.auxiliaryAt i).coefficient c : Rat) = 1 ∧
        (p.auxiliaryAt i).artificial ≠ some c) ∧
      ((p.auxiliaryAt i).surplus = some c → ((p.auxiliaryAt i).coefficient c : Rat) = -1 ∧
        (p.auxiliaryAt i).artificial ≠ some c) ∧
      ((p.auxiliaryAt i).artificial = some c → ((p.auxiliaryAt i).coefficient c : Rat) = 1) := by
  rcases auxiliaryAt_cases hi with ⟨-, s, ha⟩ | ⟨-, e, a, hne, ha⟩ | ⟨-, a, ha⟩ <;> rw [ha]
  · refine ⟨?_, fun h => ?_, fun h => ?_⟩
    · rintro ⟨⟩
      simp [Auxiliary.coefficient]
    all_goals cases h
  · refine ⟨fun h => ?_, ?_, ?_⟩
    · cases h
    · rintro ⟨⟩
      simp [Auxiliary.coefficient, Ne.symm hne]
    · rintro ⟨⟩
      simp [Auxiliary.coefficient, hne]
  · refine ⟨fun h => ?_, fun h => ?_, ?_⟩
    · cases h
    · cases h
    · rintro ⟨⟩
      simp [Auxiliary.coefficient]

theorem mem_columns {c : Nat} (hi : i < p.constraints.length)
    (hc : c ∈ (p.auxiliaryAt i).columns) : p.numVars ≤ c ∧ c < p.numVars + p.numAuxiliary := by
  have ha : i < p.auxiliary.length := length_auxiliary ▸ hi
  rw [auxiliaryAt_of_lt ha] at hc
  rw [numAuxiliary, Auxiliary.length_auxiliaryNames]
  exact Auxiliary.mem_columns (length_signs ▸ hi) ha hc

theorem disjoint_columns {c : Nat} (hik : i ≠ k) (hi : i < p.constraints.length)
    (hk : k < p.constraints.length) (hc : c ∈ (p.auxiliaryAt i).columns) :
    c ∉ (p.auxiliaryAt k).columns := by
  have hai : i < p.auxiliary.length := length_auxiliary ▸ hi
  have hak : k < p.auxiliary.length := length_auxiliary ▸ hk
  rw [auxiliaryAt_of_lt hai] at hc
  rw [auxiliaryAt_of_lt hak]
  exact Auxiliary.disjoint_columns hik (length_signs ▸ hi) (length_signs ▸ hk) hai hak hc

/-! ## The row of a constraint -/

theorem width_rowOf (hp : p.Regular) (hi : i < p.constraints.length) :
    (p.rowOf i).width = p.numVars + p.numAuxiliary := by
  have hc := forall_mem_constraints.mp hp.constraints i hi
  simp [rowOf, Row.width, hc]

theorem vec_rowOf_decision (hp : p.Regular) (hi : i < p.constraints.length) {j : Nat}
    (hj : j < p.numVars) : (p.rowOf i).vec j = (p.constraintAt i).coefficients.getD j 0 := by
  have hc := forall_mem_constraints.mp hp.constraints i hi
  rw [Row.vec_of_lt (by rw [width_rowOf hp hi]; omega), rowOf, List.getD_append _ _ _ _ (by omega)]

theorem vec_rowOf_auxiliary (hp : p.Regular) (hi : i < p.constraints.length)
    (hk : k < p.numAuxiliary) :
    (p.rowOf i).vec (p.numVars + k) = (p.auxiliaryAt i).coefficient (p.numVars + k) := by
  have hc := forall_mem_constraints.mp hp.constraints i hi
  rw [Row.vec_of_lt (by rw [width_rowOf hp hi]; omega), rowOf,
    List.getD_append_right _ _ _ _ (by omega), hc, Nat.add_sub_cancel_left,
    List.getD_eq_getElem _ _ (by simpa using hk), List.getElem_map, List.getElem_range]

/-- A row reads an auxiliary column by its coefficient. -/
theorem vec_rowOf_column (hp : p.Regular) (hi : i < p.constraints.length)
    (hk : k < p.constraints.length) {c : Nat} (hc : c ∈ (p.auxiliaryAt k).columns) :
    (p.rowOf i).vec c = (p.auxiliaryAt i).coefficient c := by
  obtain ⟨h1, h2⟩ := mem_columns hk hc
  obtain ⟨d, rfl⟩ := Nat.exists_eq_add_of_le h1
  exact vec_rowOf_auxiliary hp hi (by omega)

/-- No row reads an auxiliary column of another one. -/
theorem vec_rowOf_other (hp : p.Regular) (hi : i < p.constraints.length)
    (hk : k < p.constraints.length) (hik : i ≠ k) {c : Nat}
    (hc : c ∈ (p.auxiliaryAt k).columns) : (p.rowOf i).vec c = 0 := by
  rw [vec_rowOf_column hp hi hk hc]
  exact Auxiliary.coefficient_eq_zero (disjoint_columns (Ne.symm hik) hk hi hc)

/-- One column read out of a block of columns. -/
private theorem sum_block (n m c : Nat) (hc : n ≤ c ∧ c < n + m) (v : Nat → Rat) :
    (∑ k ∈ Finset.range m, (if c = n + k then v (n + k) else 0)) = v c := by
  obtain ⟨d, rfl⟩ := Nat.exists_eq_add_of_le hc.1
  have he : ∀ k ∈ Finset.range m, (if n + d = n + k then v (n + k) else 0) =
      if d = k then v (n + k) else 0 := fun k _ => by simp
  rw [Finset.sum_congr rfl he, Finset.sum_ite_eq, if_pos (Finset.mem_range.mpr (by omega))]

/-- The auxiliary part of a row adds the slack and the artificial variable and subtracts the
surplus. -/
private theorem sum_coefficient (hi : i < p.constraints.length) (v : Nat → Rat) :
    (∑ k ∈ Finset.range p.numAuxiliary,
        (p.auxiliaryAt i).coefficient (p.numVars + k) * v (p.numVars + k)) =
      valueAt v (p.auxiliaryAt i).slack - valueAt v (p.auxiliaryAt i).surplus +
        valueAt v (p.auxiliaryAt i).artificial := by
  have hm := fun c (hc : c ∈ (p.auxiliaryAt i).columns) => mem_columns hi hc
  rcases auxiliaryAt_cases hi with ⟨-, s, ha⟩ | ⟨-, e, a, hne, ha⟩ | ⟨-, a, ha⟩
  · rw [ha] at hm ⊢
    have hs := sum_block _ _ s (hm s (by simp [Auxiliary.columns])) v
    simpa [Auxiliary.coefficient, valueAt, ite_mul] using hs
  · rw [ha] at hm ⊢
    have he := sum_block _ _ e (hm e (by simp [Auxiliary.columns])) v
    have hs := sum_block _ _ a (hm a (by simp [Auxiliary.columns])) v
    have hsplit : ∀ k ∈ Finset.range p.numAuxiliary,
        (Auxiliary.mk none (some e) (some a)).coefficient (p.numVars + k) * v (p.numVars + k) =
          (if a = p.numVars + k then v (p.numVars + k) else 0) -
            if e = p.numVars + k then v (p.numVars + k) else 0 := fun k _ => by
      simp only [Auxiliary.coefficient, reduceCtorEq, Option.some.injEq, ↓reduceIte]
      split
      · rename_i h
        rw [if_neg (by omega)]
        ring
      · split <;> simp
    rw [Finset.sum_congr rfl hsplit, Finset.sum_sub_distrib, he, hs]
    simp only [valueAt_none, valueAt_some]
    ring
  · rw [ha] at hm ⊢
    have hs := sum_block _ _ a (hm a (by simp [Auxiliary.columns])) v
    simpa [Auxiliary.coefficient, valueAt, ite_mul] using hs

/-- **The left side of a row** is the left side of its constraint and its auxiliary variables. -/
theorem lhs_rowOf (hp : p.Regular) (hi : i < p.constraints.length) (v : Nat → Rat) :
    (p.rowOf i).lhs v = (p.constraintAt i).lhs (p.decision v) +
      (valueAt v (p.auxiliaryAt i).slack - valueAt v (p.auxiliaryAt i).surplus +
        valueAt v (p.auxiliaryAt i).artificial) := by
  have hc := forall_mem_constraints.mp hp.constraints i hi
  rw [Row.lhs, width_rowOf hp hi, Finset.sum_range_add, ← sum_coefficient hi, Constraint.lhs,
    decision, Scalar.dot_range hc]
  congr 1
  · refine Finset.sum_congr rfl fun j hj => ?_
    rw [vec_rowOf_decision hp hi (Finset.mem_range.mp hj)]
  · refine Finset.sum_congr rfl fun k hk => ?_
    rw [vec_rowOf_auxiliary hp hi (Finset.mem_range.mp hk)]

/-! ## The objective row -/

/-- The objective row before any penalty is put in. -/
def costRow (p : Problem Rat) : Row Rat :=
  ⟨(Tableau.maximized p).map (-·) ++ List.replicate p.numAuxiliary 0, 0⟩

/-- What the penalty on the artificial variable of a constraint adds to the objective row, its
elimination included. -/
def penaltyOf (p : Problem Rat) (penalty : Rat) (i : Nat) : Nat → Rat :=
  match (p.auxiliaryAt i).artificial with
  | none => 0
  | some c => Pi.single c penalty - penalty • (p.rowOf i).vec

variable {penalty : Rat}

theorem width_costRow (hp : p.Regular) : p.costRow.width = p.numVars + p.numAuxiliary := by
  simp [costRow, Row.width, length_maximized hp]

theorem vec_costRow_decision (hp : p.Regular) {j : Nat} (hj : j < p.numVars) :
    p.costRow.vec j = -(Tableau.maximized p).getD j 0 := by
  have hl := length_maximized hp
  rw [Row.vec_of_lt (by rw [width_costRow hp]; omega), costRow,
    List.getD_append _ _ _ _ (by simpa [hl] using hj),
    List.getD_eq_getElem _ _ (by simpa [hl] using hj),
    List.getElem_map, List.getD_eq_getElem _ _ (by omega)]

theorem vec_costRow_auxiliary (hp : p.Regular) {j : Nat} (hj : p.numVars ≤ j) :
    p.costRow.vec j = 0 := by
  have hl := length_maximized hp
  have hw := width_costRow hp
  rcases Nat.lt_trichotomy j p.costRow.width with h | rfl | h
  · rw [Row.vec_of_lt h, costRow, List.getD_append_right _ _ _ _ (by simpa [hl] using hj)]
    simp
  · exact Row.vec_width
  · exact Row.vec_of_gt h

/-- Every constraint reads its own artificial variable once. -/
theorem vec_rowOf_artificial (hp : p.Regular) (hi : i < p.constraints.length) {c : Nat}
    (h : (p.auxiliaryAt i).artificial = some c) : (p.rowOf i).vec c = 1 := by
  rw [vec_rowOf_column hp hi hi (Auxiliary.mem_columns_of_artificial h)]
  exact (coefficient_auxiliaryAt hi).2.2 h

/-- The penalty of one constraint leaves the auxiliary columns of the others alone. -/
theorem penaltyOf_other (hp : p.Regular) (hi : i < p.constraints.length)
    (hk : k < p.constraints.length) (hik : i ≠ k) {c : Nat}
    (hc : c ∈ (p.auxiliaryAt k).columns) : p.penaltyOf penalty i c = 0 := by
  cases hd : (p.auxiliaryAt i).artificial with
  | none => simp [penaltyOf, hd]
  | some d =>
    have hne : c ≠ d := fun h =>
      disjoint_columns (Ne.symm hik) hk hi hc (h ▸ Auxiliary.mem_columns_of_artificial hd)
    simp [penaltyOf, hd, vec_rowOf_other hp hi hk hik hc, hne]

/-- The penalty of a constraint is eliminated from its own basic column. -/
theorem penaltyOf_basic (hp : p.Regular) (hi : i < p.constraints.length) :
    p.penaltyOf penalty i (p.auxiliaryAt i).basic = 0 := by
  have hv := fun c => vec_rowOf_artificial (c := c) hp hi
  rw [penaltyOf]
  rcases auxiliaryAt_cases hi with ⟨-, s, ha⟩ | ⟨-, e, a, hne, ha⟩ | ⟨-, a, ha⟩ <;>
    rw [ha] at hv ⊢
  · rfl
  · simp [Auxiliary.basic, hv a rfl]
  · simp [Auxiliary.basic, hv a rfl]

end Problem

namespace Tableau

variable {p : Problem Rat} {penalty : Rat}

private theorem vec_set {z : Row Rat} {c : Nat} (hc : c < z.width) (a : Rat) :
    ({ z with coefficients := z.coefficients.set c a } : Row Rat).vec =
      Function.update z.vec c a := by
  have hc' : c < (z.coefficients ++ [z.rhs]).length := by
    simp only [Row.width] at hc
    simp only [List.length_append, List.length_singleton]
    omega
  funext j
  simp only [Row.vec, Row.entries, ← List.set_append_left _ _ hc, List.getD_eq_getElem?_getD]
  by_cases hj : j = c
  · subst hj
    rw [List.getElem?_set_self hc', Function.update_self]
    rfl
  · rw [List.getElem?_set_ne (Ne.symm hj), Function.update_of_ne hj]
    simp only [Row.vec, Row.entries, List.getD_eq_getElem?_getD]

private theorem width_penalize {z r : Row Rat} {c : Nat} (hr : r.width = z.width) :
    (penalize penalty z r c).width = z.width := by
  have hs : ({ z with coefficients := z.coefficients.set c penalty } : Row Rat).width = z.width :=
    List.length_set
  rw [penalize, Row.width_subMul (by rw [hs, hr]), hs]

private theorem vec_penalize {z r : Row Rat} {c : Nat} (hr : r.width = z.width)
    (hc : c < z.width) (h0 : z.vec c = 0) :
    (penalize penalty z r c).vec = z.vec + (Pi.single c penalty - penalty • r.vec) := by
  have hs : ({ z with coefficients := z.coefficients.set c penalty } : Row Rat).width = z.width :=
    List.length_set
  rw [penalize, Row.vec_subMul (by rw [hs, hr]), vec_set hc, ← add_sub_assoc]
  congr 1
  funext j
  by_cases hj : j = c
  · subst hj
    simp [h0]
  · simp [hj]

/-- One constraint after the other, each penalty is put in and eliminated. A column that still waits
for its penalty is zero until then, so that nothing is overwritten. -/
private theorem vec_penalizeAll (hp : p.Regular) (is : List Nat) (z : Row Rat)
    (hn : is.Nodup) (hi : ∀ i ∈ is, i < p.constraints.length)
    (hz : z.width = p.numVars + p.numAuxiliary)
    (h0 : ∀ i ∈ is, ∀ c ∈ (p.auxiliaryAt i).columns, z.vec c = 0) :
    (penalizeAll penalty z (is.map fun i => (p.rowOf i, p.auxiliaryAt i))).width = z.width ∧
      (penalizeAll penalty z (is.map fun i => (p.rowOf i, p.auxiliaryAt i))).vec =
        z.vec + (is.map (p.penaltyOf penalty)).sum := by
  induction is generalizing z with
  | nil => simp [penalizeAll]
  | cons i rest ih =>
    have him := hi i List.mem_cons_self
    have hw : (p.rowOf i).width = z.width := by rw [Problem.width_rowOf hp him, hz]
    -- The row after the penalty of constraint `i`.
    obtain ⟨z', hz', hwz, hvz⟩ : ∃ z', (match (p.auxiliaryAt i).artificial with
        | none => z
        | some col => penalize penalty z (p.rowOf i) col) = z' ∧ z'.width = z.width ∧
        z'.vec = z.vec + p.penaltyOf penalty i := by
      refine ⟨_, rfl, ?_⟩
      rw [Problem.penaltyOf]
      cases ha : (p.auxiliaryAt i).artificial with
      | none => exact ⟨rfl, (add_zero _).symm⟩
      | some c =>
        have hc := Auxiliary.mem_columns_of_artificial ha
        have hlt : c < z.width := by
          have hm := Problem.mem_columns him hc
          omega
        exact ⟨width_penalize hw, vec_penalize hw hlt (h0 i List.mem_cons_self c hc)⟩
    have hrest := ih z' (List.nodup_cons.mp hn).2 (fun k hk => hi k (List.mem_cons_of_mem _ hk))
      (hwz.trans hz) fun k hk c hc => by
        have hik : i ≠ k := fun h => (List.nodup_cons.mp hn).1 (h ▸ hk)
        rw [hvz, Pi.add_apply, h0 k (List.mem_cons_of_mem _ hk) c hc,
          Problem.penaltyOf_other hp him (hi k (List.mem_cons_of_mem _ hk)) hik hc, add_zero]
    have hstep : penalizeAll penalty z ((i :: rest).map fun i => (p.rowOf i, p.auxiliaryAt i)) =
        penalizeAll penalty z' (rest.map fun i => (p.rowOf i, p.auxiliaryAt i)) := by
      rw [← hz']
      rfl
    rw [hstep, hrest.1, hrest.2, hvz, hwz, List.map_cons, List.sum_cons, add_assoc]
    exact ⟨rfl, rfl⟩

/-! ## The first tableau -/

/-- The first tableau of a regular program. -/
def start (p : Problem Rat) (penalty : Rat) : Tableau Rat where
  rows := p.startRows
  objective := penalizeAll penalty p.costRow
    ((List.range p.constraints.length).map fun i => (p.rowOf i, p.auxiliaryAt i))
  headers := p.names ++ auxiliaryNames p.signs
  basis := p.auxiliary.map fun a => (a.basic : Int)
  slackCols := p.auxiliary.map (·.slack)
  surplusCols := p.auxiliary.map (·.surplus)
  artificialCols := p.auxiliary.map fun a => a.artificial.map Int.ofNat
  numDecision := p.numVars
  minimize := p.sense == .minimize
  penalty := penalty

theorem fitColumns_eq {xs : List Rat} {n : Nat} (h : xs.length = n) : fitColumns n xs = .ok xs := by
  unfold fitColumns
  split
  · subst h
    rfl
  · rw [if_pos h]

/-- **A regular program has a first tableau.** -/
theorem ofProblem_eq (hp : p.Regular) (penalty : Rat) :
    ofProblem p penalty = .ok (start p penalty) := by
  have hzip : (p.constraints.zip p.auxiliary) =
      (List.range p.constraints.length).map fun i => (p.constraintAt i, p.auxiliaryAt i) := by
    apply List.ext_getElem
    · simp [Problem.length_auxiliary]
    · intro i h1 h2
      have hi : i < p.constraints.length := by simpa using h2
      rw [List.getElem_zip, List.getElem_map, List.getElem_range, Problem.constraintAt_of_lt hi,
        Problem.auxiliaryAt_of_lt (Problem.length_auxiliary ▸ hi)]
  have hrows : (p.constraints.zip p.auxiliary).mapM
      (fun ca => constraintRow p.numVars p.numAuxiliary ca.1 ca.2) = .ok p.startRows := by
    rw [mapM_eq_ok (g := fun ca => ⟨ca.1.coefficients ++
      (List.range p.numAuxiliary).map fun k => ca.2.coefficient (p.numVars + k), ca.1.rhs⟩), hzip,
      List.map_map]
    · rfl
    · intro ca hca
      rw [constraintRow, fitColumns_eq (hp.constraints _ (List.of_mem_zip hca).1)]
      rfl
  have hcosts : fitColumns p.numVars ((maximized p).map (-·)) = .ok ((maximized p).map (-·)) :=
    fitColumns_eq (by rw [List.length_map, Problem.length_maximized hp])
  have hpairs : p.startRows.zip p.auxiliary =
      (List.range p.constraints.length).map fun i => (p.rowOf i, p.auxiliaryAt i) := by
    apply List.ext_getElem
    · simp [Problem.startRows, Problem.length_auxiliary]
    · intro i h1 h2
      have hi : i < p.constraints.length := by simpa using h2
      rw [List.getElem_zip, List.getElem_map, List.getElem_range,
        Problem.auxiliaryAt_of_lt (Problem.length_auxiliary ▸ hi)]
      simp [Problem.startRows]
  unfold ofProblem
  show ((p.constraints.zip p.auxiliary).mapM
    (fun ca => constraintRow p.numVars p.numAuxiliary ca.1 ca.2) >>= _) = _
  rw [hrows]
  show (fitColumns p.numVars ((maximized p).map (-·)) >>= _) = _
  rw [hcosts, start, ← hpairs]
  rfl

/-! ## Its shape -/

@[simp] theorem length_rows_start : (start p penalty).rows.length = p.constraints.length := by
  simp [start, Problem.startRows]

theorem rowAt_start {i : Nat} (hi : i < p.constraints.length) :
    (start p penalty).rowAt i = p.rowOf i := by
  rw [rowAt_of_lt (by rwa [length_rows_start])]
  simp [start, Problem.startRows]

/-- The auxiliary columns wait for their penalties at zero. -/
private theorem objective_start (hp : p.Regular) :
    (start p penalty).objective.width = p.costRow.width ∧
      (start p penalty).objective.vec = p.costRow.vec +
        ((List.range p.constraints.length).map (p.penaltyOf penalty)).sum :=
  vec_penalizeAll hp _ p.costRow List.nodup_range (fun _ hi => List.mem_range.mp hi)
    (Problem.width_costRow hp) fun _ hi _ hc =>
      Problem.vec_costRow_auxiliary hp (Problem.mem_columns (List.mem_range.mp hi) hc).1

theorem rhs_start (h : ∀ c ∈ p.constraints, 0 ≤ c.rhs) :
    ∀ r ∈ (start p penalty).rows, 0 ≤ r.rhs := by
  rw [forall_mem_rows, length_rows_start]
  intro i hi
  rw [rowAt_start hi]
  exact Problem.forall_mem_constraints.mp h i hi

theorem numColumns_start (hp : p.Regular) :
    (start p penalty).numColumns = p.numVars + p.numAuxiliary := by
  rw [numColumns, (objective_start hp).1, Problem.width_costRow hp]

theorem SameEquations.numColumns_eq {t : Tableau Rat} (hp : p.Regular)
    (h : SameEquations (start p penalty) t) : t.numColumns = p.numVars + p.numAuxiliary :=
  h.numColumns.trans (numColumns_start hp)

/-- **The objective row of the first tableau.** -/
theorem vec_objective_start (hp : p.Regular) :
    (start p penalty).objective.vec =
      p.costRow.vec + ∑ i ∈ Finset.range p.constraints.length, p.penaltyOf penalty i :=
  (objective_start hp).2

theorem basicCol_start {i : Nat} (hi : i < p.constraints.length) :
    (start p penalty).basicCol i = (p.auxiliaryAt i).basic := by
  have ha : i < p.auxiliary.length := Problem.length_auxiliary ▸ hi
  rw [basicCol, start, List.getD_eq_getElem _ _ (by simpa using ha), List.getElem_map,
    Int.toNat_natCast, Problem.auxiliaryAt_of_lt ha]

/-- The basic column of a constraint is its own, and its row reads it once. -/
private theorem basic_mem_columns (hp : p.Regular) {i : Nat} (hi : i < p.constraints.length) :
    (p.auxiliaryAt i).basic ∈ (p.auxiliaryAt i).columns ∧
      (p.rowOf i).vec (p.auxiliaryAt i).basic = 1 := by
  obtain ⟨c, hc, hb⟩ : ∃ c, ((p.auxiliaryAt i).slack = some c ∨
      (p.auxiliaryAt i).artificial = some c) ∧ (p.auxiliaryAt i).basic = c := by
    rcases Problem.auxiliaryAt_cases hi with ⟨-, s, ha⟩ | ⟨-, e, a, -, ha⟩ | ⟨-, a, ha⟩ <;> rw [ha]
    · exact ⟨s, .inl rfl, rfl⟩
    · exact ⟨a, .inr rfl, rfl⟩
    · exact ⟨a, .inr rfl, rfl⟩
  rw [hb]
  rcases hc with hc | hc
  · have hm := Auxiliary.mem_columns_of_slack hc
    exact ⟨hm, (Problem.vec_rowOf_column hp hi hi hm).trans
      ((Problem.coefficient_auxiliaryAt hi).1 hc).1⟩
  · exact ⟨Auxiliary.mem_columns_of_artificial hc, Problem.vec_rowOf_artificial hp hi hc⟩

theorem wellShaped_start (hp : p.Regular) : (start p penalty).WellShaped where
  width_eq := by
    rw [forall_mem_rows, length_rows_start]
    intro i hi
    rw [rowAt_start hi, Problem.width_rowOf hp hi, numColumns_start hp]
  length_headers := by
    rw [numColumns_start hp]
    simp [start, Problem.numVars, Problem.numAuxiliary]
  length_basis := by
    rw [length_rows_start]
    simp [start, Problem.length_auxiliary]
  basis_lt := by
    intro c hc
    obtain ⟨a, ha, rfl⟩ := List.mem_map.mp hc
    obtain ⟨i, hi, rfl⟩ := List.getElem_of_mem ha
    have him : i < p.constraints.length := Problem.length_auxiliary ▸ hi
    have hb := Problem.mem_columns him (basic_mem_columns hp him).1
    rw [Problem.auxiliaryAt_of_lt hi] at hb
    exact ⟨_, by rw [numColumns_start hp]; exact hb.2, rfl⟩

/-- **The first tableau is canonical.** -/
theorem canonical_start (hp : p.Regular) : (start p penalty).Canonical where
  toWellShaped := wellShaped_start hp
  unit := by
    intro i hi k hk
    rw [length_rows_start] at hi hk
    rw [basicCol_start hi]
    obtain ⟨hb, h1⟩ := basic_mem_columns hp hi
    rcases Nat.lt_or_eq_of_le hk with hk | rfl
    · rw [rowAt_start hk]
      split
      · rename_i hki
        rw [hki, h1]
      · rename_i hki
        exact Problem.vec_rowOf_other hp hk hi hki hb
    · have hl := rowAt_length (t := start p penalty)
      rw [length_rows_start] at hl
      rw [hl, if_neg (by omega), vec_objective_start hp, Pi.add_apply, Finset.sum_apply,
        Problem.vec_costRow_auxiliary hp (Problem.mem_columns hi hb).1, zero_add]
      refine Finset.sum_eq_zero fun k hk => ?_
      by_cases hki : k = i
      · rw [hki]
        exact Problem.penaltyOf_basic hp hi
      · exact Problem.penaltyOf_other hp (Finset.mem_range.mp hk) hi hki hb

end Tableau

end TableauSimplex
