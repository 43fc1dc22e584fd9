import TableauSimplex.Proofs.RatioTest
import TableauSimplex.Proofs.Tableau.SameBasis
import TableauSimplex.Proofs.Trace

/-!
# Repeated bases

Without tolerances a pivot raises the objective cell by a positive rate times the right side of
its row (`Run.Reaches.exists_gain`). So the cells of the records rise along a run, and they stay the
same exactly where the pivots between them are degenerate. As the basic columns determine the
objective cell, a run comes back to a basis by degenerate pivots alone. A run without them has a
different basis in every record, and there are only so many (`repeated_basis`).

* `Run.RecordedIn`: the state of a run in which one of its records was made.
* `Run.DegenerateAt`: a pivot in a row whose right side is zero.
-/

namespace TableauSimplex

namespace Run

variable {s : Settings Rat} {t : Tableau Rat} {first r next q q' : Run Rat} {i j k : Nat}

/-- The state of a run, from its first one, in which a record was made. -/
structure RecordedIn (s : Settings Rat) (first r : Run Rat) (k : Nat) (q : Run Rat) : Prop where
  reached : Reaches s first q
  continued : Reaches s q r
  pivots : q.pivots = k
  shows : ∃ it, r.iterations[k]? = some it ∧ it.Shows q.tableau

/-- The pivot from one record of a run to the next is degenerate: the right side of its row was
zero, and the objective cell did not change. -/
def DegenerateAt (r : Run Rat) (k : Nat) : Prop :=
  ∃ prev it, ∃ row : Nat, ∃ source : Row Rat, r.iterations[k]? = some prev ∧
    r.iterations[k + 1]? = some it ∧ it.pivotRow = some (row : Int) ∧
    prev.rows[row]? = some source ∧ source.rhs = 0 ∧ it.objective.rhs = prev.objective.rhs

/-! ## Records and states -/

/-- **The trace of every state** of a run from a labelled tableau. -/
theorem Reaches.logged (hr : Reaches s first r) (hfirst : start t = .ok first) (h : t.Labelled) :
    r.Logged t ∧ r.tableau.Labelled := by
  induction hr with
  | refl => exact ⟨logged_start hfirst, tableau_start hfirst ▸ h⟩
  | tail _ hstep ih =>
    obtain ⟨row, col, hp⟩ := hstep
    obtain ⟨hr, hc⟩ := hp.lt_of_labelled ih.2
    exact ⟨(ih.1.pivoted ih.2 hp).1, hp.tableau ▸ ih.2.pivot hr hc⟩

/-- Every record was made in a state. -/
theorem Reaches.exists_recordedIn (hr : Reaches s first r) (hfirst : start t = .ok first)
    (h : t.Labelled) (hk : k ≤ r.pivots) : ∃ q, RecordedIn s first r k q := by
  have hlen := (hr.logged hfirst h).1.length
  have hlt : k < r.iterations.length := by omega
  obtain ⟨q, hq, hqr, htake, hshows⟩ := hr.exists_shows hfirst k hlt
  refine ⟨q, hq, hqr, ?_, r.iterations[k], List.getElem?_eq_getElem hlt, hshows⟩
  rw [Run.pivots, htake, List.length_take]
  omega

theorem Reaches.recordedIn_first (hr : Reaches s first r) (hfirst : start t = .ok first)
    (h : t.Labelled) : RecordedIn s first r 0 first := by
  obtain ⟨it, hit, hshows⟩ := (hr.logged hfirst h).1.first
  exact ⟨.refl, hr, pivots_start hfirst, it, hit, tableau_start hfirst ▸ hshows⟩

theorem Reaches.recordedIn_last (hr : Reaches s first r) (hfirst : start t = .ok first)
    (h : t.Labelled) : RecordedIn s first r r.pivots r :=
  ⟨hr, .refl, rfl, (hr.logged hfirst h).1.last⟩

/-- **Two records with a pivot between them** show the tableaux before and after it. -/
theorem Reaches.exists_pivoted (hr : Reaches s first r) (hfirst : start t = .ok first)
    (h : t.Labelled) (hk : k < r.pivots) :
    ∃ q next row col prev it, Reaches s first q ∧ Pivoted s q next row col ∧
      r.iterations[k]? = some prev ∧ prev.Shows q.tableau ∧
      r.iterations[k + 1]? = some it ∧ it.Shows next.tableau ∧ it.pivotRow = some (row : Int) := by
  induction hr with
  | refl =>
    rw [pivots_start hfirst] at hk
    omega
  | @tail r next hprev hstep ih =>
    obtain ⟨row, col, hp⟩ := hstep
    obtain ⟨hlogged, hlabelled⟩ := Reaches.logged hprev hfirst h
    obtain ⟨leaving, it, -, hit, hits⟩ := hp.iterations
    have hpivots := (hlogged.pivoted hlabelled hp).2
    have hlen := hlogged.length
    by_cases hlt : k < r.pivots
    · obtain ⟨q, q', row', col', before, after, hq, hp', hbefore, hshows, hafter, hshows', hrow⟩ :=
        ih hlt
      refine ⟨q, q', row', col', before, after, hq, hp', ?_, hshows, ?_, hshows', hrow⟩
      · rw [hits, getElem?_concat_eq_some]
        exact .inl hbefore
      · rw [hits, getElem?_concat_eq_some]
        exact .inl hafter
    · -- The pivot is the last one.
      obtain rfl : k = r.pivots := by omega
      obtain ⟨before, hbefore, hshows⟩ := hlogged.last
      refine ⟨r, next, row, col, before, it, hprev, hp, ?_, hshows, ?_,
        Iteration.shows_of_snapshot hit, (Iteration.snapshot_spec hit).2.2.1⟩
      · rw [hits, getElem?_concat_eq_some]
        exact .inl hbefore
      · rw [hits, getElem?_concat_eq_some]
        exact .inr ⟨by omega, rfl⟩

/-! ## The objective cell -/

/-- The objective cell in a record. -/
def cell (r : Run Rat) (k : Nat) : Rat := ((r.iterations[k]?).map (·.objective.rhs)).getD 0

theorem cell_eq {it : Iteration Rat} (h : r.iterations[k]? = some it) :
    r.cell k = it.objective.rhs := by
  rw [cell, h]
  rfl

theorem DegenerateAt.cell_succ (h : r.DegenerateAt k) : r.cell (k + 1) = r.cell k := by
  obtain ⟨prev, it, -, -, hprev, hit, -, -, -, hcell⟩ := h
  rw [Run.cell_eq hprev, Run.cell_eq hit, hcell]

theorem RecordedIn.cell_eq (h : RecordedIn s first r k q) : r.cell k = q.tableau.objective.rhs := by
  obtain ⟨it, hit, hshows⟩ := h.shows
  rw [Run.cell_eq hit, hshows.objective]

section

variable (he : s.entering = 0) (hs : s.ratio = 0) (hfirst : start t = .ok first)
  (h : t.Canonical) (hf : ∀ e ∈ t.rows, 0 ≤ e.rhs) (hr : Reaches s first r)

include he hs hfirst h hf hr

/-- **What a pivot gains:** a positive rate times the right side of its row, which is not
negative. -/
theorem Reaches.exists_gain (hk : k < r.pivots) :
    ∃ prev it, ∃ row : Nat, ∃ source : Row Rat, ∃ rate : Rat, r.iterations[k]? = some prev ∧
      r.iterations[k + 1]? = some it ∧ it.pivotRow = some (row : Int) ∧
      prev.rows[row]? = some source ∧ 0 ≤ source.rhs ∧ 0 < rate ∧
      it.objective.rhs = prev.objective.rhs + rate * source.rhs := by
  obtain ⟨q, next, row, col, prev, it, hq, hp, hprev, hshows, hit, hshows', hrow⟩ :=
    hr.exists_pivoted hfirst h.toWellShaped.labelled hk
  have htableau := tableau_start hfirst
  have hcan := hq.canonical (htableau ▸ h)
  have hrhs := hq.rhs_nonneg (htableau ▸ h) hs (htableau ▸ hf)
  have henter := q.tableau.enteringColumn_spec s.entering
  rw [hp.entering] at henter
  have hleave := hcan.leavingRow_spec henter.2.lt s.ratio
  rw [hp.leavingRow] at hleave
  obtain ⟨hrowlt, hpos, -, -⟩ := hleave
  rw [he, neg_zero] at henter
  rw [hs] at hpos
  refine ⟨prev, it, row, q.tableau.rowAt row,
    -q.tableau.objective.vec col / (q.tableau.rowAt row).vec col, hprev, hit, hrow, ?_,
    Tableau.forall_mem_rows.mp hrhs row hrowlt, div_pos (neg_pos.mpr henter.1) hpos, ?_⟩
  · rw [hshows.rows, Tableau.rowAt_of_lt hrowlt]
    exact List.getElem?_eq_getElem hrowlt
  · rw [hshows'.objective, hshows.objective, hp.tableau,
      hcan.rhs_objective_pivot hrowlt henter.2.lt, Tableau.stepLength]
    ring

/-- **The objective cells rise** from record to record. -/
theorem Reaches.cell_le (hij : i ≤ j) (hj : j ≤ r.pivots) : r.cell i ≤ r.cell j := by
  induction j, hij using Nat.le_induction with
  | base => exact le_rfl
  | succ j _ ih =>
    obtain ⟨prev, it, -, source, rate, hprev, hit, -, -, hrhs, hrate, hgain⟩ :=
      hr.exists_gain he hs hfirst h hf (k := j) (by omega)
    have hup := mul_nonneg hrate.le hrhs
    have hle := ih (by omega)
    rw [cell_eq hprev] at hle
    rw [cell_eq hit]
    linarith

/-- **Between records with the same objective cell** every pivot is degenerate. -/
theorem Reaches.degenerateAt (hk : k ≤ r.pivots) (hcell : r.cell i = r.cell k) (hij : i ≤ j)
    (hjk : j < k) : r.DegenerateAt j := by
  obtain ⟨prev, it, row, source, rate, hprev, hit, hrow, hsource, hrhs, hrate, hgain⟩ :=
    hr.exists_gain he hs hfirst h hf (k := j) (by omega)
  have hbefore := hr.cell_le he hs hfirst h hf hij (by omega)
  have hafter := hr.cell_le he hs hfirst h hf (i := j + 1) hjk hk
  rw [cell_eq hprev] at hbefore
  rw [cell_eq hit] at hafter
  have hzero : rate * source.rhs = 0 := by
    have hup := mul_nonneg hrate.le hrhs
    linarith
  refine ⟨prev, it, row, source, hprev, hit, hrow, hsource, ?_, by linarith⟩
  exact (mul_eq_zero.mp hzero).resolve_left hrate.ne'

end

/-! ## Basic columns -/

/-- Records with the same basic columns have the same objective cell. -/
theorem RecordedIn.cell_eq_of_basis (hq : RecordedIn s first r i q)
    (hq' : RecordedIn s first r k q') (h : first.tableau.Canonical)
    (hb : ∀ c, c ∈ q.tableau.basis ↔ c ∈ q'.tableau.basis) : r.cell i = r.cell k := by
  have hcan := hq.reached.canonical h
  have hcan' := hq'.reached.canonical h
  have hsame := (hq.reached.sameEquations h).symm.trans (hq'.reached.sameEquations h)
  have hcols : q.tableau.basicCols = q'.tableau.basicCols := by
    ext j
    rw [← hcan.natCast_mem_basis, ← hcan'.natCast_mem_basis, hb]
  rw [hq.cell_eq, hq'.cell_eq, hsame.objective_eq hcan hcan' hcols]

end Run

namespace Tableau

variable {t t' : Tableau Rat}

/-- There are as many basic columns as rows. -/
theorem Canonical.card_basicCols (h : t.Canonical) : t.basicCols.card = t.rows.length := by
  rw [basicCols, Finset.card_image_of_injOn, Finset.card_range]
  intro i hi k hk he
  exact h.basicCol_inj (Finset.mem_range.mp hi) (Finset.mem_range.mp hk) he

theorem Canonical.basicCols_mem (h : t.Canonical) :
    t.basicCols ∈ (Finset.range t.numColumns).powersetCard t.rows.length := by
  refine Finset.mem_powersetCard.mpr ⟨fun j hj => ?_, h.card_basicCols⟩
  obtain ⟨i, hi, rfl⟩ := mem_basicCols.mp hj
  exact Finset.mem_range.mpr (h.basicCol_lt hi)

theorem WellShaped.mem_basis_iff_of_basicCols (h : t.WellShaped) (h' : t'.WellShaped)
    (hb : t.basicCols = t'.basicCols) (c : Int) : c ∈ t.basis ↔ c ∈ t'.basis := by
  constructor
  · intro hc
    obtain ⟨j, -, rfl⟩ := h.basis_lt c hc
    rwa [h'.natCast_mem_basis, ← hb, ← h.natCast_mem_basis]
  · intro hc
    obtain ⟨j, -, rfl⟩ := h'.basis_lt c hc
    rwa [h.natCast_mem_basis, hb, ← h'.natCast_mem_basis]

end Tableau

/-- Records with different basic columns are fewer than there are sets of them. -/
theorem Run.Reaches.pivots_lt {s : Settings Rat} {t : Tableau Rat} {first r : Run Rat}
    (hr : Run.Reaches s first r) (hfirst : Run.start t = .ok first) (h : t.Canonical)
    (hne : ∀ i k q q', i < k → Run.RecordedIn s first r i q → Run.RecordedIn s first r k q' →
      ¬∀ c, c ∈ q.tableau.basis ↔ c ∈ q'.tableau.basis) :
    r.pivots < t.numColumns.choose t.rows.length := by
  have hstate : ∀ k : Fin (r.pivots + 1), ∃ q, Run.RecordedIn s first r k q := fun k =>
    hr.exists_recordedIn hfirst h.toWellShaped.labelled (Nat.le_of_lt_succ k.isLt)
  choose q hq using hstate
  have hfirst' : first.tableau.Canonical := Run.tableau_start hfirst ▸ h
  have hcan : ∀ k, (q k).tableau.Canonical := fun k => (hq k).reached.canonical hfirst'
  have hsame : ∀ k, Tableau.SameEquations t (q k).tableau := fun k =>
    Run.tableau_start hfirst ▸ (hq k).reached.sameEquations hfirst'
  have hinj : Function.Injective fun k => (q k).tableau.basicCols := by
    intro i k hik
    have hbasis := (hcan i).toWellShaped.mem_basis_iff_of_basicCols (hcan k).toWellShaped hik
    rcases lt_trichotomy i k with hlt | heq | hgt
    · exact absurd hbasis (hne i k _ _ hlt (hq i) (hq k))
    · exact heq
    · exact absurd (fun c => (hbasis c).symm) (hne k i _ _ hgt (hq k) (hq i))
  have hmaps : ∀ k ∈ Finset.univ, (q k).tableau.basicCols ∈
      (Finset.range t.numColumns).powersetCard t.rows.length := fun k _ => by
    rw [← (hsame k).numColumns, ← (hsame k).length_rows]
    exact (hcan k).basicCols_mem
  have hcard := Finset.card_le_card_of_injOn _ hmaps hinj.injOn
  rwa [Finset.card_univ, Fintype.card_fin, Finset.card_powersetCard, Finset.card_range] at hcard

/-- **Runs that come back to a basis.** Let a run without tolerances start from a canonical tableau
without a negative right side, and go on by steps and whole runs. Every record was made in a state.
If two records were made in states with the same set of basic columns, then all pivots between them
are degenerate. So a run without degenerate pivots has different sets of basic columns in all its
records, and it makes fewer pivots than there are sets of as many columns as rows. -/
theorem repeated_basis {t : Tableau Rat} (h : t.Canonical) (hf : ∀ e ∈ t.rows, 0 ≤ e.rhs)
    {s : Settings Rat} (he : s.entering = 0) (hs : s.ratio = 0) :
    ∃ first, Run.start t = .ok first ∧ ∀ r, Run.Visits s first r →
      (∀ k ≤ r.pivots, ∃ q, Run.RecordedIn s first r k q) ∧
      (∀ i k q q', i < k → Run.RecordedIn s first r i q → Run.RecordedIn s first r k q' →
        (∀ c, c ∈ q.tableau.basis ↔ c ∈ q'.tableau.basis) →
        ∀ j, i ≤ j → j < k → r.DegenerateAt j) ∧
      ((∀ j < r.pivots, ¬r.DegenerateAt j) →
        (∀ i k q q', i < k → Run.RecordedIn s first r i q → Run.RecordedIn s first r k q' →
          ¬∀ c, c ∈ q.tableau.basis ↔ c ∈ q'.tableau.basis) ∧
        r.pivots < t.numColumns.choose t.rows.length) := by
  have hlabelled := h.toWellShaped.labelled
  obtain ⟨first, hfirst⟩ := Run.exists_start hlabelled
  refine ⟨first, hfirst, fun r hv => ?_⟩
  have hfirst' : first.tableau.Canonical := Run.tableau_start hfirst ▸ h
  have hr := hv.reaches hfirst'.toWellShaped
  have hrepeat : ∀ i k q q', i < k → Run.RecordedIn s first r i q →
      Run.RecordedIn s first r k q' → (∀ c, c ∈ q.tableau.basis ↔ c ∈ q'.tableau.basis) →
      k ≤ r.pivots ∧ ∀ j, i ≤ j → j < k → r.DegenerateAt j := by
    intro i k q q' hik hq hq' hb
    have hk : k ≤ r.pivots := by
      obtain ⟨it, hit, -⟩ := hq'.shows
      obtain ⟨hlt, -⟩ := List.getElem?_eq_some_iff.mp hit
      have hlen := (hr.logged hfirst hlabelled).1.length
      omega
    exact ⟨hk, fun j hij hjk => hr.degenerateAt he hs hfirst h hf hk
      (hq.cell_eq_of_basis hq' hfirst' hb) hij hjk⟩
  refine ⟨fun k hk => hr.exists_recordedIn hfirst hlabelled hk,
    fun i k q q' hik hq hq' hb => (hrepeat i k q q' hik hq hq' hb).2, fun hno => ?_⟩
  have hne : ∀ i k q q', i < k → Run.RecordedIn s first r i q → Run.RecordedIn s first r k q' →
      ¬∀ c, c ∈ q.tableau.basis ↔ c ∈ q'.tableau.basis := by
    intro i k q q' hik hq hq' hb
    obtain ⟨hk, hall⟩ := hrepeat i k q q' hik hq hq' hb
    exact hno i (by omega) (hall i le_rfl hik)
  exact ⟨hne, hr.pivots_lt hfirst h hne⟩

/-- Three rows on which the choice of the least reduced cost goes round in a circle. -/
def circlingRows : Tableau Rat where
  rows := [⟨[1 / 4, -60, -1 / 25, 9, 1, 0, 0], 0⟩, ⟨[1 / 2, -90, -1 / 50, 3, 0, 1, 0], 0⟩,
    ⟨[0, 0, 1, 0, 0, 0, 1], 1⟩]
  objective := ⟨[-3 / 4, 150, -1 / 50, 6, 0, 0, 0], 0⟩
  headers := [.text "x1", .text "x2", .text "x3", .text "x4", .text "s1", .text "s2", .text "s3"]
  basis := [4, 5, 6]
  slackCols := [some 4, some 5, some 6]
  surplusCols := [none, none, none]
  artificialCols := [none, none, none]
  numDecision := 4
  minimize := true
  penalty := 100000

theorem canonical_circlingRows : circlingRows.Canonical where
  width_eq := by decide
  length_headers := rfl
  length_basis := rfl
  basis_lt := by decide
  unit := by decide +kernel

/-- Three rows on which both pivots raise the objective cell. -/
def risingRows : Tableau Rat where
  rows := [⟨[1, 0, 1, 0, 0], 4⟩, ⟨[0, 2, 0, 1, 0], 12⟩, ⟨[3, 2, 0, 0, 1], 18⟩]
  objective := ⟨[-3, -5, 0, 0, 0], 0⟩
  headers := [.text "x", .text "y", .text "s1", .text "s2", .text "s3"]
  basis := [2, 3, 4]
  slackCols := [some 2, some 3, some 4]
  surplusCols := [none, none, none]
  artificialCols := [none, none, none]
  numDecision := 2
  minimize := false
  penalty := 100000

theorem canonical_risingRows : risingRows.Canonical where
  width_eq := by decide
  length_headers := rfl
  length_basis := rfl
  basis_lt := by decide
  unit := by decide +kernel

/-- Settings without tolerances in the choice of a pivot. -/
def Settings.exactChoice (maxIterations : Limit) : Settings Rat :=
  { entering := 0, ratio := 0, maxIterations }

/-- After six pivots the first run is back at the basis that it started from, and all six are
degenerate. The second run has no such pivot, and two are fewer than ten. -/
theorem repeated_basis_circlingRows :
    (∃ first last, Run.start circlingRows = .ok first ∧
      (first.finish (.exactChoice (.whole 6))).1 = last ∧ last.pivots = 6 ∧
      last.tableau.basis = [4, 5, 6] ∧ ∀ j < 6, last.DegenerateAt j) ∧
    ∃ first last, Run.start risingRows = .ok first ∧
      (first.finish (.exactChoice (.whole 100))).1 = last ∧
      last.pivots = 2 ∧ last.pivots < 10 := by
  constructor
  · obtain ⟨first, hfirst, hall⟩ := repeated_basis canonical_circlingRows (by decide +kernel)
      (s := .exactChoice (.whole 6)) rfl rfl
    obtain ⟨first', hfirst', hpivots, hbasis⟩ := exists_of_toOption_any (Run.start circlingRows)
      (fun first => (first.finish (.exactChoice (.whole 6))).1.pivots = 6 ∧
        (first.finish (.exactChoice (.whole 6))).1.tableau.basis = [4, 5, 6]) (by decide +kernel)
    cases hfirst.symm.trans hfirst'
    have hlabelled := canonical_circlingRows.toWellShaped.labelled
    have hv : Run.Visits (.exactChoice (.whole 6)) first _ := Run.Visits.start.finish
    have hr := hv.reaches (Run.tableau_start hfirst ▸ canonical_circlingRows.toWellShaped)
    have hback : first.tableau.basis = [4, 5, 6] := by
      rw [Run.tableau_start hfirst]
      rfl
    refine ⟨first, _, hfirst, rfl, hpivots, hbasis, fun j hj => ?_⟩
    exact (hall _ hv).2.1 0 6 _ _ (by decide) (hr.recordedIn_first hfirst hlabelled)
      (hpivots ▸ hr.recordedIn_last hfirst hlabelled) (by simp [hback, hbasis]) j j.zero_le hj
  · obtain ⟨first, hfirst, hall⟩ := repeated_basis canonical_risingRows (by decide +kernel)
      (s := .exactChoice (.whole 100)) rfl rfl
    obtain ⟨first', hfirst', hpivots, hcells⟩ := exists_of_toOption_any (Run.start risingRows)
      (fun first => (first.finish (.exactChoice (.whole 100))).1.pivots = 2 ∧
        (List.range 3).map (first.finish (.exactChoice (.whole 100))).1.cell = [0, 30, 36])
      (by decide +kernel)
    cases hfirst.symm.trans hfirst'
    simp only [List.range_succ, List.range_zero, List.nil_append, List.cons_append, List.map_cons,
      List.map_nil, List.cons.injEq, and_true] at hcells
    obtain ⟨hzero, hone, htwo⟩ := hcells
    have hrising := ((hall _ Run.Visits.start.finish).2.2 fun j hj hdegenerate => by
      have hcell := hdegenerate.cell_succ
      rw [hpivots] at hj
      interval_cases j
      · rw [hzero, hone] at hcell
        exact absurd hcell (by norm_num)
      · rw [hone, htwo] at hcell
        exact absurd hcell (by norm_num)).2
    exact ⟨first, _, hfirst, rfl, hpivots, hrising⟩

end TableauSimplex
