import TableauSimplex.Proofs.Run
import TableauSimplex.Proofs.Tableau.Rectangular
import TableauSimplex.Proofs.Tableau.Start

/-!
# The records of a run

A run keeps a record of every tableau that it passes through. A tableau can be recorded when the
basis names a column for every row (`Tableau.Labelled.exists_snapshot`), and then a step that fails
leaves the run as it was (`Run.step_failed`). So single steps and whole runs, in any order, come to
nothing but pivots (`Run.Visits.reaches`). Every record shows the tableau of the
state that it was made in (`Run.Reaches.exists_shows`).

A record stands for equations of its own (`Iteration.Solves`). All records of a run from the first
tableau of a program have the same solutions, and all of them show canonical tableaux
(`records_canonical`).
-/

namespace TableauSimplex

/-! ## Names and records of a labelled tableau -/

namespace Tableau

variable {t : Tableau Rat} {row col : Nat}

/-- Every row has an entry for every column, every column has a name, and the basis names a column
for every constraint row. Unlike in a well-shaped tableau it may count from the end of the headers,
and stand for no column. -/
structure Labelled (t : Tableau Rat) : Prop where
  width_eq : ∀ r ∈ t.rows, r.width = t.numColumns
  length_headers : t.headers.length = t.numColumns
  length_basis : t.basis.length = t.rows.length
  basis_mem : ∀ c ∈ t.basis, -(t.numColumns : Int) ≤ c ∧ c < t.numColumns

theorem WellShaped.labelled (h : t.WellShaped) : t.Labelled where
  width_eq := h.width_eq
  length_headers := h.length_headers
  length_basis := h.length_basis
  basis_mem c hc := by
    obtain ⟨j, hj, rfl⟩ := h.basis_lt c hc
    omega

namespace Labelled

variable (h : t.Labelled)

include h

theorem rectangular : t.Rectangular := h.width_eq

theorem entry_eq_vec (hc : col < t.numColumns) :
    (t.rowAt row).entry col = (t.rowAt row).vec col :=
  h.rectangular.entry_eq_vec hc

/-- The entries of a column that no row bounds. -/
theorem entry_le_of_leavingRow (hc : col < t.numColumns) {tol : Rat}
    (hl : t.leavingRow col tol = none) : ∀ q ∈ t.rows, q.entry col ≤ tol :=
  (h.rectangular.leavingRow_eq_none_iff hc).mp hl

/-- The entry of the row that bounds a column first. -/
theorem lt_entry_of_leavingRow (hc : col < t.numColumns) {tol : Rat}
    (hl : t.leavingRow col tol = some row) :
    row < t.rows.length ∧ tol < (t.rowAt row).entry col :=
  ⟨(h.rectangular.firstLeast hc hl).lt, (h.rectangular.firstLeast hc hl).holds⟩

theorem numColumns_pivot (hr : row < t.rows.length) (hc : col < t.numColumns) :
    (t.pivot row col).numColumns = t.numColumns :=
  h.rectangular.numColumns_pivot hc hr

theorem pivot (hr : row < t.rows.length) (hc : col < t.numColumns) :
    (t.pivot row col).Labelled where
  width_eq := h.rectangular.pivot hc hr
  length_headers := by
    rw [h.numColumns_pivot hr hc]
    exact h.length_headers
  length_basis := by
    rw [length_rows_pivot, ← h.length_basis]
    exact List.length_set
  basis_mem := by
    rw [h.numColumns_pivot hr hc]
    intro c hm
    rcases List.mem_or_eq_of_mem_set hm with hm | rfl
    · exact h.basis_mem c hm
    · omega

theorem exists_headerAt (hc : col < t.numColumns) :
    ∃ name, t.headers[col]? = some name ∧ t.headerAt (col : Int) = .ok name := by
  have hl : col < t.headers.length := by rw [h.length_headers]; exact hc
  refine ⟨t.headers[col], List.getElem?_eq_getElem hl, ?_⟩
  rw [headerAt, nameAt, itemAt?_natCast, List.getElem?_eq_getElem hl]

/-- What the basis names. -/
theorem exists_basicName {c : Int} (hc : c ∈ t.basis) :
    ∃ name, itemAt? t.headers c = some name ∧ t.headerAt c = .ok name := by
  obtain ⟨place, hplace, hlt⟩ :
      ∃ place, place? t.headers.length c = some place ∧ place < t.headers.length := by
    have hmem := h.basis_mem c hc
    rw [← h.length_headers] at hmem
    simp only [place?]
    split
    · exact ⟨_, if_pos ⟨by omega, by omega⟩, by omega⟩
    · exact ⟨_, if_pos ⟨by omega, by omega⟩, by omega⟩
  have hitem : itemAt? t.headers c = some t.headers[place] := by
    rw [itemAt?, hplace, Option.bind_some, List.getElem?_eq_getElem hlt]
  exact ⟨_, hitem, by rw [headerAt, nameAt, hitem]⟩

/-- **A labelled tableau can be recorded.** -/
theorem exists_snapshot (number : Int) {entering : Option Int} (leaving : Option Name)
    (pivotRow : Option Int) (he : ∀ j ∈ entering, ∃ col < t.numColumns, j = (col : Int)) :
    ∃ it, t.snapshot number entering leaving pivotRow = .ok it := by
  obtain ⟨names, hnames⟩ : ∃ names, t.basisNames = .ok names := exists_mapM_eq_ok fun c hc => by
    obtain ⟨name, -, hname⟩ := h.exists_basicName hc
    exact ⟨name, hname⟩
  rw [snapshot, hnames]
  cases entering with
  | none => exact ⟨_, rfl⟩
  | some j =>
    obtain ⟨col, hc, rfl⟩ := he j rfl
    obtain ⟨name, -, hname⟩ := h.exists_headerAt hc
    simp only [Option.mapM, hname]
    exact ⟨_, rfl⟩

/-- Within the tableau only a zero entry refuses a pivot. -/
theorem tryPivot_eq (hr : row < t.rows.length) (hc : col < t.numColumns) :
    t.tryPivot row (col : Int) =
      if (t.rowAt row).entry col = 0 then (t, some .zeroPivot) else (t.pivot row col, none) := by
  have hb : row < t.basis.length := h.length_basis ▸ hr
  rw [Tableau.tryPivot_eq hr hc, if_pos hb]

end Labelled

end Tableau

namespace Run

variable {s : Settings Rat} {r q next reached first : Run Rat} {cause : Error} {row col : Nat}

/-- A run starts from any labelled tableau. -/
theorem exists_start {t : Tableau Rat} (h : t.Labelled) : ∃ first, start t = .ok first := by
  have hcol : ∀ j ∈ (none : Option Int), ∃ col < t.numColumns, j = (col : Int) := nofun
  exact exists_bind_eq_ok (h.exists_snapshot 0 none none hcol) fun _ _ => ⟨_, rfl⟩

/-! ## Steps that fail -/

/-- Within the tableau a pivot is made and recorded, unless its entry is zero. -/
private theorem pivotOn_cases (h : r.tableau.Labelled) (hr : row < r.tableau.rows.length)
    (hc : col < r.tableau.numColumns) :
    (r.pivotOn row col = .failed r .zeroPivot ∧ (r.tableau.rowAt row).entry col = 0) ∨
      ∃ next, r.pivotOn row col = .pivoted next := by
  have hb : row < r.tableau.basis.length := h.length_basis ▸ hr
  obtain ⟨leaving, hleaving, -⟩ := h.exists_basicName (List.getElem_mem hb)
  rw [pivotOn, List.getElem?_eq_getElem hb, Option.bind_some, hleaving, h.tryPivot_eq hr hc]
  simp only
  by_cases h0 : (r.tableau.rowAt row).entry col = 0
  · rw [if_pos h0]
    exact .inl ⟨rfl, h0⟩
  · rw [if_neg h0]
    simp only
    have hcol : ∀ j ∈ some (col : Int),
        ∃ c < (r.tableau.pivot row col).numColumns, j = (c : Int) := by
      rintro _ ⟨⟩
      exact ⟨col, by rwa [h.numColumns_pivot hr hc], rfl⟩
    obtain ⟨it, hit⟩ :=
      (h.pivot hr hc).exists_snapshot r.iterations.length (some leaving) (some (row : Int)) hcol
    rw [hit]
    exact .inr ⟨_, rfl⟩

/-- The entering column has the name and no entry above the tolerance. -/
def Unbounded (s : Settings Rat) (r : Run Rat) (name : Name) : Prop :=
  ∃ col, r.tableau.enteringColumn s.entering = .ok (some col) ∧
    r.tableau.headers[col]? = some name ∧ ∀ q ∈ r.tableau.rows, q.entry col ≤ s.ratio

/-- **A step that fails leaves the run as it was.** On a tableau with columns, with a tolerance that
is not negative, it fails for an entering column without a bound alone. -/
theorem step_failed (h : r.tableau.Labelled) (hstep : r.step s = .failed reached cause) :
    reached = r ∧ ((∃ name, cause = .unbounded name ∧ r.Unbounded s name) ∨
      r.tableau.numColumns = 0 ∨ s.ratio < 0) := by
  have he := r.tableau.enteringColumn_spec s.entering
  rw [step] at hstep
  cases hcol : r.tableau.enteringColumn s.entering with
  | error e =>
    rw [hcol] at hstep he
    cases hstep
    exact ⟨rfl, .inr (.inl he.2)⟩
  | ok entering =>
    rw [hcol] at hstep he
    cases entering with
    | none => cases hstep
    | some col =>
      have hc := he.2.lt
      simp only at hstep
      cases hrow : r.tableau.leavingRow col s.ratio with
      | none =>
        obtain ⟨name, hname, -⟩ := h.exists_headerAt hc
        rw [hrow, hname] at hstep
        cases hstep
        exact ⟨rfl, .inl ⟨name, rfl, col, hcol, hname, h.entry_le_of_leavingRow hc hrow⟩⟩
      | some row =>
        obtain ⟨hr, hlt⟩ := h.lt_entry_of_leavingRow hc hrow
        rw [hrow] at hstep
        simp only at hstep
        rcases pivotOn_cases h hr hc with ⟨hfailed, h0⟩ | ⟨next, hnext⟩
        · rw [hfailed] at hstep
          cases hstep
          exact ⟨rfl, .inr (.inr (h0 ▸ hlt))⟩
        · rw [hnext] at hstep
          cases hstep

/-! ## Steps and whole runs -/

theorem Pivoted.wellShaped (hp : Pivoted s r next row col) (h : r.tableau.WellShaped) :
    next.tableau.WellShaped := by
  obtain ⟨hr, hc⟩ := hp.bounds h
  rw [hp.tableau]
  exact h.pivot hr hc

/-- **Every tableau of a run is well-shaped.** -/
theorem Reaches.wellShaped (hr : Reaches s r reached) (h : r.tableau.WellShaped) :
    reached.tableau.WellShaped := by
  induction hr with
  | refl => exact h
  | tail _ hstep ih =>
    obtain ⟨row, col, hp⟩ := hstep
    exact hp.wellShaped ih

theorem Reaches.numColumns (hr : Reaches s r reached) (h : r.tableau.WellShaped) :
    reached.tableau.numColumns = r.tableau.numColumns := by
  induction hr with
  | refl => rfl
  | tail hprev hstep ih =>
    obtain ⟨row, col, hp⟩ := hstep
    have hw := Reaches.wellShaped hprev h
    rw [hp.tableau, hw.numColumns_pivot (hp.bounds hw).1, ih]

/-- The run after a step, also after one that fails. -/
def afterStep (s : Settings Rat) (r : Run Rat) : Run Rat :=
  match r.step s with
  | .optimal => r
  | .pivoted next => next
  | .failed reached _ => reached

/-- What single steps and whole runs make of a run, in any order and also where they fail. -/
inductive Visits (s : Settings Rat) (r : Run Rat) : Run Rat → Prop where
  | start : Visits s r r
  | step {q : Run Rat} (h : Visits s r q) : Visits s r (q.afterStep s)
  | finish {q : Run Rat} (h : Visits s r q) : Visits s r (q.finish s).1

theorem reaches_afterStep (h : r.tableau.WellShaped) : Reaches s r (r.afterStep s) := by
  have hs := step_spec s r
  rw [afterStep]
  cases hstep : r.step s with
  | optimal => exact .refl
  | pivoted next =>
    rw [hstep] at hs
    exact .single hs
  | failed reached cause =>
    rw [(step_failed h.labelled hstep).1]
    exact .refl

theorem reaches_loop (h : r.tableau.WellShaped) (fuel : Nat) : Reaches s r (loop s fuel r).1 := by
  induction fuel generalizing r with
  | zero => exact .refl
  | succ fuel ih =>
    have hs := step_spec s r
    rw [loop]
    cases hstep : r.step s with
    | optimal => exact .refl
    | failed reached cause =>
      rw [(step_failed h.labelled hstep).1]
      exact .refl
    | pivoted next =>
      rw [hstep] at hs
      obtain ⟨row, col, hp⟩ := hs
      simp only
      split
      · exact .single ⟨row, col, hp⟩
      · exact .head ⟨row, col, hp⟩ (ih (hp.wellShaped h))

/-- **Steps and whole runs come to nothing but pivots.** -/
theorem Visits.reaches (hv : Visits s r q) (h : r.tableau.WellShaped) : Reaches s r q := by
  induction hv with
  | start => exact .refl
  | step _ ih => exact ih.trans (reaches_afterStep (ih.wellShaped h))
  | finish _ ih => exact ih.trans (reaches_loop (ih.wellShaped h) _)

end Run

/-! ## Records -/

namespace Iteration

variable {it : Iteration Rat} {t : Tableau Rat}

/-- A record shows a tableau: its numbers, its names and the names of its basic columns. -/
structure Shows (it : Iteration Rat) (t : Tableau Rat) : Prop where
  rows : it.rows = t.rows
  objective : it.objective = t.objective
  headers : it.headers = t.headers
  basis : t.basisNames = .ok it.basis

theorem shows_of_snapshot {number : Int} {entering pivotRow : Option Int} {leaving : Option Name}
    (h : t.snapshot number entering leaving pivotRow = .ok it) : it.Shows t := by
  obtain ⟨basis, hbasis, h⟩ := exists_of_bind_eq_ok h
  obtain ⟨name, -, h⟩ := exists_of_bind_eq_ok h
  cases h
  exact ⟨rfl, rfl, rfl, hbasis⟩

/-- A point with a value for every column and an objective value solve the equations of a record. -/
def Solves (it : Iteration Rat) (v : Nat → Rat) (z : Rat) : Prop :=
  (∀ r ∈ it.rows, r.lhs v = r.rhs) ∧ z + it.objective.lhs v = it.objective.rhs

theorem Shows.solves_iff (h : it.Shows t) {v : Nat → Rat} {z : Rat} :
    it.Solves v z ↔ t.Solves v z := by
  rw [Solves, Tableau.Solves, h.rows, h.objective]

end Iteration

/-- **Every record shows the tableau of the state that it was made in.** -/
theorem Run.Reaches.exists_shows {s : Settings Rat} {t : Tableau Rat} {first r : Run Rat}
    (hfirst : Run.start t = .ok first) (hr : Run.Reaches s first r) :
    ∀ k (hk : k < r.iterations.length), ∃ q, Run.Reaches s first q ∧ Run.Reaches s q r ∧
      q.iterations = r.iterations.take (k + 1) ∧ r.iterations[k].Shows q.tableau := by
  induction hr with
  | refl =>
    obtain ⟨it, hit, h⟩ := exists_of_bind_eq_ok hfirst
    cases h
    intro k hk
    obtain rfl : k = 0 := by simpa using hk
    exact ⟨_, .refl, .refl, rfl, Iteration.shows_of_snapshot hit⟩
  | @tail r next hprev hstep ih =>
    obtain ⟨row, col, hp⟩ := id hstep
    obtain ⟨leaving, it, -, hit, hits⟩ := hp.iterations
    rw [hits]
    intro k hk
    rcases Nat.lt_or_ge k r.iterations.length with hlt | hge
    · obtain ⟨q, hq, hqr, htake, hshows⟩ := ih k hlt
      refine ⟨q, hq, hqr.tail hstep, ?_, ?_⟩
      · rw [List.take_append_of_le_length (by omega), htake]
      · rw [List.getElem_append_left hlt]
        exact hshows
    · -- The last record is that of the last state.
      obtain rfl : k = r.iterations.length := by
        rw [List.length_append, List.length_singleton] at hk
        omega
      refine ⟨next, hprev.tail hstep, .refl, ?_, ?_⟩
      · rw [hits, List.take_of_length_le (by simp)]
      · rw [List.getElem_append_right (le_refl _)]
        simp only [Nat.sub_self, List.getElem_singleton]
        exact Iteration.shows_of_snapshot hit

/-- **Basic columns are different.** -/
theorem Tableau.Canonical.nodup_basis {t : Tableau Rat} (h : t.Canonical) : t.basis.Nodup := by
  rw [List.Nodup, List.pairwise_iff_getElem]
  intro i k hi hk hik he
  rw [(h.basis_eq hi).1, (h.basis_eq hk).1, Int.natCast_inj] at he
  exact absurd (h.basicCol_inj (h.length_basis ▸ hi) (h.length_basis ▸ hk) he) (by omega)

/-- **The records of a run from the first tableau of a program**, whatever the signs of its right
sides and however the run came about. A record has the solutions of the first record, and it shows
the tableau of an earlier state of the run. That tableau is canonical: its basic columns are
different, and each is one in its own row and zero in all other rows and in the objective row. -/
theorem records_canonical {p : Problem Rat} (hp : p.Regular) (s : Settings Rat) :
    ∃ t first, Tableau.ofProblem p s.penalty = .ok t ∧ Run.start t = .ok first ∧
      ∀ r, Run.Visits s first r → ∀ k (hk : k < r.iterations.length),
        (∃ it₀, r.iterations.head? = some it₀ ∧
          ∀ v z, r.iterations[k].Solves v z ↔ it₀.Solves v z) ∧
        ∃ q, Run.Reaches s first q ∧ Run.Reaches s q r ∧
          q.iterations = r.iterations.take (k + 1) ∧ r.iterations[k].Shows q.tableau ∧
          q.tableau.basis.Nodup ∧ q.tableau.Canonical := by
  have hcan : (Tableau.start p s.penalty).Canonical := Tableau.canonical_start hp
  obtain ⟨first, hfirst⟩ := Run.exists_start hcan.toWellShaped.labelled
  refine ⟨_, first, Tableau.ofProblem_eq hp s.penalty, hfirst, fun r hv k hk => ?_⟩
  rw [← Run.tableau_start hfirst] at hcan
  have hr := hv.reaches hcan.toWellShaped
  have hall := hr.exists_shows hfirst
  have hsolves : ∀ q, Run.Reaches s first q →
      ∀ v z, q.tableau.Solves v z ↔ first.tableau.Solves v z := fun q hq v z =>
    (hq.sameEquations hcan).solves_iff hcan.toWellShaped (hq.canonical hcan).toWellShaped
  obtain ⟨q, hq, hqr, htake, hshows⟩ := hall k hk
  obtain ⟨q₀, hq₀, -, -, hshows₀⟩ := hall 0 (by omega)
  refine ⟨⟨r.iterations[0], List.head?_eq_getElem? .. ▸ List.getElem?_eq_getElem _, fun v z => ?_⟩,
    q, hq, hqr, htake, hshows, (hq.canonical hcan).nodup_basis, hq.canonical hcan⟩
  rw [hshows.solves_iff, hshows₀.solves_iff, hsolves q hq, hsolves q₀ hq₀]

/-- A row of each sign, the first one with a negative right side. -/
def shiftedRows : Problem Rat where
  sense := .maximize
  names := [.text "x", .text "y"]
  objective := [1, 2]
  constraints := [⟨[1, -1], .atLeast, -1⟩, ⟨[1, 1], .atMost, 4⟩, ⟨[2, 1], .equal, 5⟩]

/-- The records of a run that ends after two pivots under the default settings. -/
theorem records_canonical_shiftedRows :
    ∃ t first it₀ it, ∃ q : Run Rat, Tableau.ofProblem shiftedRows 1e5 = .ok t ∧
      Run.start t = .ok first ∧ (first.finish {}).1.iterations.head? = some it₀ ∧
      (first.finish {}).1.iterations[2]? = some it ∧ (∀ v z, it.Solves v z ↔ it₀.Solves v z) ∧
      it.Shows q.tableau ∧ q.tableau.basis.Nodup ∧ q.tableau.Canonical := by
  obtain ⟨t, first, ht, hfirst, hall⟩ := records_canonical (p := shiftedRows) (by decide +kernel) {}
  have hlen : (first.finish {}).1.iterations.length = 3 := by
    have h : (Tableau.ofProblem shiftedRows 1e5 >>= Run.start).toOption.map
        (fun first => (first.finish {}).1.iterations.length) = some 3 := by decide +kernel
    rw [show Tableau.ofProblem shiftedRows 1e5 = .ok t from ht] at h
    rw [show (Except.ok t >>= Run.start) = .ok first from hfirst] at h
    exact Option.some.inj h
  obtain ⟨⟨it₀, hit₀, hsolves⟩, q, -, -, -, hshows, hnodup, hcan⟩ :=
    hall _ (Run.Visits.start.finish) 2 (by omega)
  exact ⟨t, first, it₀, _, q, ht, hfirst, hit₀, List.getElem?_eq_getElem _, hsolves, hshows, hnodup,
    hcan⟩

end TableauSimplex
