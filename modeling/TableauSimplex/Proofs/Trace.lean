import TableauSimplex.Proofs.Records

/-!
# The trace of a run

A run takes any labelled tableau, canonical or not. Whatever it comes to, its records and its
tableau stay in lockstep: there is one record more than pivots, each one is that of a pivot of the
one before it, and the last one shows the tableau of the run (`Run.Logged`). A run with a whole
limit on its pivots comes to one of three ends (`Run.Halts`).

* `Run.Logged.pivoted`: what a pivot does to the trace.
* `finish_trace`: how every run from a labelled tableau ends, and the trace it leaves.
-/

namespace TableauSimplex

namespace Iteration

variable {it prev : Iteration Rat} {t : Tableau Rat} {row col : Nat}

/-- A record is that of the pivot, on a row and a column, of the tableau that another record shows.
It names what enters and what leaves, and the basis differs in the row of the pivot alone. -/
structure IsPivotOf (it prev : Iteration Rat) (row col : Nat) : Prop where
  row_lt : row < prev.rows.length
  col_lt : col < prev.headers.length
  pivotRow : it.pivotRow = some (row : Int)
  pivotCol : it.pivotCol = some (col : Int)
  pivot : ∃ t t', prev.Shows t ∧ t.tryPivot row (col : Int) = (t', none) ∧ it.Shows t'
  leaving : it.leaving = prev.basis[row]?
  entering : ∃ name, prev.headers[col]? = some name ∧ it.entering = some name ∧
    it.basis = prev.basis.set row name

/-- What a record holds beside the tableau. -/
theorem snapshot_spec {number : Int} {entering pivotRow : Option Int} {leaving : Option Name}
    (h : t.snapshot number entering leaving pivotRow = .ok it) :
    it.number = number ∧ it.leaving = leaving ∧ it.pivotRow = pivotRow ∧ it.pivotCol = entering ∧
      entering.mapM t.headerAt = .ok it.entering := by
  obtain ⟨basis, -, h⟩ := exists_of_bind_eq_ok h
  obtain ⟨name, hname, h⟩ := exists_of_bind_eq_ok h
  cases h
  exact ⟨rfl, rfl, rfl, rfl, hname⟩

/-- **The record of a pivot** follows any record that shows the tableau before it. -/
theorem Shows.isPivotOf (hprev : prev.Shows t) (h : t.Labelled) (hr : row < t.rows.length)
    (hc : col < t.numColumns) (hne : (t.rowAt row).entry col ≠ 0) {number : Int} {leaving : Name}
    (hleaving : (t.basis[row]?).bind (itemAt? t.headers) = some leaving)
    (hit : (t.pivot row col).snapshot number (some (col : Int)) (some leaving) (some (row : Int)) =
      .ok it) : it.IsPivotOf prev row col := by
  obtain ⟨-, hleft, hrow, hcol, hentering⟩ := snapshot_spec hit
  have hshows : it.Shows (t.pivot row col) := shows_of_snapshot hit
  obtain ⟨name, hname, hheader⟩ := h.exists_headerAt hc
  have hb : row < t.basis.length := h.length_basis ▸ hr
  have hbasis : prev.basis[row]? = some leaving := by
    obtain ⟨y, hy, hplace⟩ := getElem?_of_mapM_eq_ok hprev.basis (List.getElem?_eq_getElem hb)
    rw [List.getElem?_eq_getElem hb, Option.bind_some] at hleaving
    rw [Tableau.headerAt, nameAt, hleaving] at hy
    rw [hplace, ← Except.ok.inj hy]
  refine ⟨hprev.rows ▸ hr, ?_, hrow, hcol, ⟨t, _, hprev, ?_, hshows⟩, hleft.trans hbasis.symm,
    name, hprev.headers ▸ hname, ?_, ?_⟩
  · rw [hprev.headers, h.length_headers]
    exact hc
  · rw [h.tryPivot_eq hr hc, if_neg hne]
  · -- The names of the columns are those of the tableau before the pivot.
    have hheader' : (t.pivot row col).headerAt (col : Int) = .ok name := hheader
    simp only [Option.mapM, hheader'] at hentering
    exact (Except.ok.inj hentering).symm
  · have hset : (t.pivot row col).basisNames = .ok (prev.basis.set row name) :=
      mapM_set_eq_ok hprev.basis hheader row
    exact Except.ok.inj (hshows.basis.symm.trans hset)

end Iteration

namespace Run

variable {s : Settings Rat} {t : Tableau Rat} {r next first : Run Rat} {row col n : Nat}

/-- **The trace of a run** from a tableau: one record for the tableau and one for every pivot,
numbered from zero, each that of a pivot of the one before it. The last one shows the tableau of the
run. -/
structure Logged (t : Tableau Rat) (r : Run Rat) : Prop where
  length : r.iterations.length = r.pivots + 1
  number : ∀ (k : Nat) (it : Iteration Rat), r.iterations[k]? = some it → it.number = k
  first : ∃ it, r.iterations[0]? = some it ∧ it.Shows t
  follows : ∀ (k : Nat) (prev it : Iteration Rat), r.iterations[k]? = some prev →
    r.iterations[k + 1]? = some it → ∃ row col, it.IsPivotOf prev row col
  last : ∃ it, r.iterations[r.pivots]? = some it ∧ it.Shows r.tableau

theorem logged_start (h : start t = .ok first) : first.Logged t := by
  obtain ⟨it, hit, h⟩ := exists_of_bind_eq_ok h
  cases h
  have hshows : it.Shows t := Iteration.shows_of_snapshot hit
  refine ⟨rfl, fun k it' hk => ?_, ⟨it, rfl, hshows⟩, fun k prev it' _ hk => ?_, it, rfl, hshows⟩
  · obtain ⟨rfl, rfl⟩ : k = 0 ∧ it = it' := by simpa [List.getElem?_singleton] using hk
    exact (Iteration.snapshot_spec hit).1
  · simp at hk

theorem pivots_start (h : start t = .ok first) : first.pivots = 0 := by
  obtain ⟨it, -, h⟩ := exists_of_bind_eq_ok h
  cases h
  rfl

theorem Pivoted.lt_of_labelled (hp : Pivoted s r next row col) (h : r.tableau.Labelled) :
    row < r.tableau.rows.length ∧ col < r.tableau.numColumns := by
  have he := r.tableau.enteringColumn_spec s.entering
  rw [hp.entering] at he
  exact ⟨(h.lt_entry_of_leavingRow he.2.lt hp.leavingRow).1, he.2.lt⟩

/-- What stands in a list after one more item. -/
theorem getElem?_concat_eq_some {β : Type} {xs : List β} {x y : β} {k : Nat} :
    (xs ++ [x])[k]? = some y ↔ xs[k]? = some y ∨ k = xs.length ∧ x = y := by
  grind

/-- **A pivot prolongs the trace** by its own record. -/
theorem Logged.pivoted (hl : r.Logged t) (h : r.tableau.Labelled)
    (hp : Pivoted s r next row col) : next.Logged t ∧ next.pivots = r.pivots + 1 := by
  obtain ⟨hr, hc⟩ := hp.lt_of_labelled h
  obtain ⟨leaving, it, hleaving, hit, hits⟩ := hp.iterations
  obtain ⟨before, hbefore, hshows⟩ := hl.last
  have hlen := hl.length
  have hlength : next.iterations.length = r.iterations.length + 1 := by
    rw [hits, List.length_append, List.length_singleton]
  have hpivots : next.pivots = r.pivots + 1 := by rw [pivots, hlength, hlen, Nat.add_sub_cancel]
  have hfollows : it.IsPivotOf before row col :=
    hshows.isPivotOf h hr hc hp.entry_ne_zero hleaving (hp.tableau ▸ hit)
  refine ⟨⟨by omega, ?_, ?_, ?_, it, ?_, Iteration.shows_of_snapshot hit⟩, hpivots⟩
  · intro k it' hk
    rw [hits, getElem?_concat_eq_some] at hk
    rcases hk with hk | ⟨rfl, rfl⟩
    · exact hl.number k it' hk
    · exact (Iteration.snapshot_spec hit).1
  · obtain ⟨it₀, hit₀, hshows₀⟩ := hl.first
    exact ⟨it₀, by rw [hits, getElem?_concat_eq_some]; exact .inl hit₀, hshows₀⟩
  · intro k prev it' hprev hk
    rw [hits, getElem?_concat_eq_some] at hprev hk
    rcases hk with hk | ⟨hk, rfl⟩
    · -- Both are old records, as the new one is the last.
      obtain ⟨hlt, -⟩ := List.getElem?_eq_some_iff.mp hk
      rcases hprev with hprev | ⟨rfl, -⟩
      · exact hl.follows k prev it' hprev hk
      · omega
    · obtain rfl : k = r.pivots := by omega
      rcases hprev with hprev | ⟨he, -⟩
      · obtain rfl := Option.some.inj (hbefore.symm.trans hprev)
        exact ⟨row, col, hfollows⟩
      · omega
  · rw [hits, getElem?_concat_eq_some]
    exact .inr ⟨by omega, rfl⟩

/-! ## The end of a run -/

/-- What a run has come to when it halts: no reduced cost is below minus the tolerance, or the
entering column has no entry above the tolerance and the step that found this left the run as it
was, or the limit on pivots was given as the cause. There is no other end. -/
def Halts (s : Settings Rat) (r : Run Rat) : Option Error → Prop
  | none => ∀ c ∈ r.tableau.objective.coefficients, -s.entering ≤ c
  | some (.unbounded name) => r.Unbounded s name ∧ r.step s = .failed r (.unbounded name)
  | some (.noConvergence limit) => limit = s.maxIterations
  | some _ => False

/-- Whether a column is left to enter. -/
def CanEnter (s : Settings Rat) (r : Run Rat) : Prop :=
  ∃ col, r.tableau.enteringColumn s.entering = .ok (some col)

theorem forall_coefficients_of_enteringColumn (h : r.tableau.enteringColumn s.entering = .ok none) :
    ∀ c ∈ r.tableau.objective.coefficients, -s.entering ≤ c := by
  have hs := r.tableau.enteringColumn_spec s.entering
  rw [h] at hs
  intro c hm
  obtain ⟨j, hj, rfl⟩ := List.getElem_of_mem hm
  have hle := hs j hj
  rwa [Row.vec_of_lt hj, List.getD_eq_getElem _ _ hj] at hle

theorem isStuck_iff (hc : 0 < r.tableau.numColumns) (hlimit : s.maxIterations = .whole n) :
    r.isStuck s = true ↔ n ≤ r.pivots ∧ r.CanEnter s := by
  have hs := r.tableau.enteringColumn_spec s.entering
  rw [isStuck, hlimit, Bool.and_eq_true, Limit.reachedBy_whole_iff]
  refine and_congr_right fun _ => ?_
  rw [CanEnter]
  cases hcol : r.tableau.enteringColumn s.entering with
  | error e =>
    rw [hcol] at hs
    exact absurd hs.2 hc.ne'
  | ok entering =>
    cases entering with
    | none => simp
    | some col => simp

/-- What holds of a run between its steps, while its limit lets it go on. -/
private structure Running (t : Tableau Rat) (s : Settings Rat) (n : Nat) (r : Run Rat) : Prop where
  labelled : r.tableau.Labelled
  numColumns_pos : 0 < r.tableau.numColumns
  logged : r.Logged t
  pivots_le : r.pivots ≤ n
  pivots_ne : r.CanEnter s → r.pivots ≠ n

/-- A pivot leads to the limit with a column left to enter, or the run goes on. -/
private theorem Running.pivoted (h : Running t s n r) (hlimit : s.maxIterations = .whole n)
    (hp : Pivoted s r next row col) :
    next.Logged t ∧ next.pivots ≤ n ∧
      if next.isStuck s then next.pivots = n ∧ next.CanEnter s else Running t s n next := by
  obtain ⟨hlogged, hpivots⟩ := h.logged.pivoted h.labelled hp
  obtain ⟨hr, hc⟩ := hp.lt_of_labelled h.labelled
  have hlt : r.pivots < n := lt_of_le_of_ne h.pivots_le (h.pivots_ne ⟨col, hp.entering⟩)
  have hle : next.pivots ≤ n := by omega
  have hcols : 0 < next.tableau.numColumns := by
    rw [hp.tableau, h.labelled.numColumns_pivot hr hc]
    exact h.numColumns_pos
  have hstuck := isStuck_iff hcols hlimit
  refine ⟨hlogged, hle, ?_⟩
  by_cases hs : next.isStuck s = true
  · rw [if_pos hs]
    obtain ⟨hge, henter⟩ := hstuck.mp hs
    exact ⟨le_antisymm hle hge, henter⟩
  · rw [if_neg hs]
    refine ⟨?_, hcols, hlogged, hle, fun henter he => hs (hstuck.mpr ⟨he.ge, henter⟩)⟩
    rw [hp.tableau]
    exact h.labelled.pivot hr hc

/-- **All steps of a run.** The induction is on the steps that are left. There are always more than
the limit allows, so that they do not run out. -/
private theorem Running.loop (h : Running t s n r) (hs : 0 ≤ s.ratio)
    (hlimit : s.maxIterations = .whole n) (fuel : Nat) (hfuel : n < r.pivots + fuel) :
    ∃ last stop, Run.loop s fuel r = (last, stop) ∧ Reaches s r last ∧ last.Logged t ∧
      last.pivots ≤ n ∧ last.Halts s stop ∧
      (stop = some (.noConvergence s.maxIterations) ↔ last.pivots = n ∧ last.CanEnter s) := by
  induction fuel generalizing r with
  | zero => exact absurd h.pivots_le (by omega)
  | succ fuel ih =>
    have hspec := step_spec s r
    rw [Run.loop]
    cases hstep : r.step s with
    | optimal =>
      rw [hstep] at hspec
      refine ⟨r, none, rfl, .refl, h.logged, h.pivots_le,
        forall_coefficients_of_enteringColumn hspec, ?_, ?_⟩
      · rintro ⟨⟩
      · rintro ⟨-, col, hcol⟩
        cases hspec.symm.trans hcol
    | failed reached cause =>
      obtain ⟨rfl, ⟨name, rfl, hunbounded⟩ | hzero | hneg⟩ := step_failed h.labelled hstep
      · refine ⟨reached, _, rfl, .refl, h.logged, h.pivots_le, ⟨hunbounded, hstep⟩, ?_, ?_⟩
        · rintro ⟨⟩
        · rintro ⟨he, hcol⟩
          exact absurd he (h.pivots_ne hcol)
      · exact absurd hzero h.numColumns_pos.ne'
      · exact absurd hs (not_le.mpr hneg)
    | pivoted next =>
      rw [hstep] at hspec
      obtain ⟨row, col, hp⟩ := hspec
      obtain ⟨hlogged, hle, hnext⟩ := h.pivoted hlimit hp
      have hone : Reaches s r next := .single ⟨row, col, hp⟩
      simp only
      split
      · rename_i hstuck
        rw [if_pos hstuck] at hnext
        exact ⟨next, _, rfl, hone, hlogged, hle, rfl, fun _ => hnext, fun _ => rfl⟩
      · rename_i hstuck
        rw [if_neg hstuck] at hnext
        have hpivots := (h.logged.pivoted h.labelled hp).2
        obtain ⟨last, stop, hloop, hreach, hrest⟩ := ih hnext (by omega)
        exact ⟨last, stop, hloop, hone.trans hreach, hrest⟩

end Run

/-- **How a run ends, and its trace.** A run starts from any labelled tableau with a column, whether
its basic columns are unit columns or not, and makes at most as many pivots as a whole limit allows.
It ends without a reduced cost below minus the tolerance, with an entering column that has no entry
above the tolerance, in which case the last step left it as it was, or for its limit: exactly when
that many pivots were made and a column is left to enter. In every case the trace is complete. -/
theorem finish_trace {t : Tableau Rat} (h : t.Labelled) (hc : 0 < t.numColumns) {s : Settings Rat}
    (hs : 0 ≤ s.ratio) {n : Nat} (hn : 0 < n) (hlimit : s.maxIterations = .whole n) :
    ∃ first last stop, Run.start t = .ok first ∧ first.finish s = (last, stop) ∧
      Run.Reaches s first last ∧ last.Logged t ∧ last.pivots ≤ n ∧ last.Halts s stop ∧
      (stop = some (.noConvergence (.whole n)) ↔ last.pivots = n ∧ last.CanEnter s) := by
  obtain ⟨first, hfirst⟩ := Run.exists_start h
  have htableau := Run.tableau_start hfirst
  have hpivots := Run.pivots_start hfirst
  have hrunning : Run.Running t s n first :=
    ⟨htableau ▸ h, htableau ▸ hc, Run.logged_start hfirst, by omega, fun _ => by omega⟩
  have hsteps : s.maxIterations.steps = n := by rw [hlimit, Limit.steps_whole]
  obtain ⟨last, stop, hloop, hend⟩ := hrunning.loop hs hlimit (n + 2) (by omega)
  rw [hlimit] at hend
  exact ⟨first, last, stop, hfirst, by rw [Run.finish, hsteps, hloop], hend⟩

/-- Two rows without a unit column, one of them with a basic column that is counted from the end. -/
def unreducedRows : Tableau Rat where
  rows := [⟨[1, 2], 4⟩, ⟨[3, 1], 6⟩]
  objective := ⟨[-1, -1], 0⟩
  headers := [.text "x", .text "y"]
  basis := [-1, 0]
  slackCols := [none, none]
  surplusCols := [none, none]
  artificialCols := [none, none]
  numDecision := 2
  minimize := false
  penalty := 100000

theorem labelled_unreducedRows : unreducedRows.Labelled where
  width_eq := by decide
  length_headers := rfl
  length_basis := rfl
  basis_mem := by decide

/-- One pivot is not enough, and two are. -/
theorem finish_trace_unreducedRows :
    (∃ first last, Run.start unreducedRows = .ok first ∧
      first.finish { maxIterations := .whole 1 } =
        (last, some (.noConvergence (.whole (1 : Nat)))) ∧
      last.pivots = 1 ∧ last.Logged unreducedRows) ∧
    ∃ first last, Run.start unreducedRows = .ok first ∧
      first.finish { maxIterations := .whole 2 } = (last, none) ∧
      last.pivots = 2 ∧ last.Logged unreducedRows := by
  constructor
  · obtain ⟨first, last, stop, hfirst, hfinish, -, hlogged, -, -, hcause⟩ :=
      finish_trace labelled_unreducedRows (by decide)
        (s := { maxIterations := .whole 1 }) (by decide +kernel) one_pos rfl
    obtain ⟨first', hfirst', hpivots, hcol⟩ := exists_of_toOption_any (Run.start unreducedRows)
      (fun first => (first.finish { maxIterations := .whole 1 }).1.pivots = 1 ∧
        ((first.finish { maxIterations := .whole 1 }).1.tableau.enteringColumn 1e-9).toOption.any
          (· = some 1)) (by decide +kernel)
    cases hfirst.symm.trans hfirst'
    rw [hfinish] at hpivots hcol
    obtain ⟨_, hcol, rfl⟩ := exists_of_toOption_any _ _ hcol
    obtain rfl := hcause.mpr ⟨hpivots, 1, hcol⟩
    exact ⟨first, last, hfirst, hfinish, hpivots, hlogged⟩
  · obtain ⟨first, last, stop, hfirst, hfinish, -, hlogged, -, hhalts, hcause⟩ :=
      finish_trace labelled_unreducedRows (by decide)
        (s := { maxIterations := .whole 2 }) (by decide +kernel) two_pos rfl
    obtain ⟨first', hfirst', hpivots, hcol⟩ := exists_of_toOption_any (Run.start unreducedRows)
      (fun first => (first.finish { maxIterations := .whole 2 }).1.pivots = 2 ∧
        ((first.finish { maxIterations := .whole 2 }).1.tableau.enteringColumn 1e-9).toOption.any
          (· = none)) (by decide +kernel)
    cases hfirst.symm.trans hfirst'
    rw [hfinish] at hpivots hcol
    obtain ⟨_, hcol, rfl⟩ := exists_of_toOption_any _ _ hcol
    -- No column is left to enter, which every other end needs.
    have hnone : ¬last.CanEnter { maxIterations := .whole 2 } := by
      rintro ⟨col, h⟩
      cases hcol.symm.trans h
    cases stop with
    | none => exact ⟨first, last, hfirst, hfinish, hpivots, hlogged⟩
    | some cause =>
      cases cause with
      | unbounded name =>
        obtain ⟨⟨col, h, -⟩, -⟩ := hhalts
        exact absurd ⟨col, h⟩ hnone
      | noConvergence limit =>
        obtain rfl : limit = .whole (2 : Nat) := hhalts
        exact absurd (hcause.mp rfl).2 hnone
      | _ => exact hhalts.elim

end TableauSimplex
