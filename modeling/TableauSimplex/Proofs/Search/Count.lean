import TableauSimplex.Proofs.Limit
import TableauSimplex.Proofs.Search.Success

/-!
# How many nodes a search takes

Where the feasible points of a program lie in a box with whole corners, those of the halves of a
node lie in the two parts of its box that the split makes. A split value is that of a feasible
point, so that neither part is empty. So a node whose points lie in a box with `size` whole points
takes no more than `2 * size - 1` turns, all its halves included (`searchInteger_explored_le`).

* `Box`: a box with whole corners. The parts of a box share out its points
  (`Box.size_below_add_size_above`).
* `Search.Budgeted`: the open nodes lie in boxes whose turns are left of a number. A turn keeps to
  the budget (`Budgeted.advances`), and so does every state (`Reaches.budgeted`).
* `Limit.AtLeast`: a limit that is no less than a number is not reached before it.
-/

namespace TableauSimplex

variable {p : Problem Rat} {s : Settings Rat}

/-! ## Limits -/

/-- A limit is a number that is at least `k`. -/
def Limit.AtLeast (k : Nat) (limit : Limit) : Prop := k ≤ limit.value

/-- **No count below a number reaches a limit** that is at least that. -/
theorem Limit.AtLeast.reachedBy_eq_false {k n : Nat} {limit : Limit} (h : limit.AtLeast k)
    (hn : n < k) : limit.reachedBy n = false := by
  refine Bool.eq_false_of_not_eq_true fun hreached => ?_
  have hle : (k : Rat) ≤ n := h.trans (reachedBy_iff.mp hreached)
  exact absurd hn (not_lt.mpr (Nat.cast_le.mp hle))

/-! ## Boxes -/

/-- A box with whole corners that are not negative. -/
structure Box where
  low : Nat → Nat
  high : Nat → Nat
  le : ∀ j, low j ≤ high j

namespace Box

variable {B : Box} {n j k : Nat}

/-- The number of whole points in a box of `n` dimensions. -/
def size (n : Nat) (B : Box) : Nat := ∏ j ∈ Finset.range n, (B.high j - B.low j + 1)

/-- A number of turns that is enough for all nodes in a box. -/
def turns (n : Nat) (B : Box) : Nat := 2 * B.size n - 1

/-- The part of a box up to `k` in one coordinate. -/
def below (B : Box) (j k : Nat) (h : B.low j ≤ k) : Box where
  low := B.low
  high := Function.update B.high j k
  le := (Function.forall_update_iff B.high fun i a => B.low i ≤ a).mpr ⟨h, fun i _ => B.le i⟩

/-- The part of a box from `k` on in one coordinate. -/
def above (B : Box) (j k : Nat) (h : k ≤ B.high j) : Box where
  low := Function.update B.low j k
  high := B.high
  le := (Function.forall_update_iff B.low fun i a => a ≤ B.high i).mpr ⟨h, fun i _ => B.le i⟩

theorem size_pos (n : Nat) (B : Box) : 0 < B.size n := Finset.prod_pos fun _ _ => Nat.succ_pos _

/-- A size is the extent in one coordinate times that of the others. -/
private theorem size_eq_of_eq (B : Box) {C : Box} (hj : j < n)
    (h : ∀ i ≠ j, C.low i = B.low i ∧ C.high i = B.high i) :
    C.size n = (C.high j - C.low j + 1) *
      ∏ i ∈ (Finset.range n).erase j, (B.high i - B.low i + 1) := by
  rw [size, ← Finset.mul_prod_erase _ _ (Finset.mem_range.mpr hj)]
  congr 1
  refine Finset.prod_congr rfl fun i hi => ?_
  obtain ⟨hlow, hhigh⟩ := h i (Finset.ne_of_mem_erase hi)
  rw [hlow, hhigh]

/-- **The two parts of a box share out its points.** -/
theorem size_below_add_size_above (hj : j < n) (hlow : B.low j ≤ k) (hhigh : k + 1 ≤ B.high j) :
    (B.below j k hlow).size n + (B.above j (k + 1) hhigh).size n = B.size n := by
  have hbelow := size_eq_of_eq B (C := B.below j k hlow) hj fun i hi =>
    ⟨rfl, Function.update_of_ne hi _ _⟩
  have habove := size_eq_of_eq B (C := B.above j (k + 1) hhigh) hj fun i hi =>
    ⟨Function.update_of_ne hi _ _, rfl⟩
  have hk : (B.below j k hlow).high j = k := Function.update_self ..
  have hk' : (B.above j (k + 1) hhigh).low j = k + 1 := Function.update_self ..
  rw [hbelow, habove, size_eq_of_eq B hj fun _ _ => ⟨rfl, rfl⟩, ← Nat.add_mul, hk, hk']
  congr 1
  show k - B.low j + 1 + (B.high j - (k + 1) + 1) = B.high j - B.low j + 1
  omega

theorem turns_pos (n : Nat) (B : Box) : 0 < B.turns n := by
  have := B.size_pos n
  rw [turns]
  omega

/-- The turns for a box are enough for one turn and for both parts. -/
theorem turns_below_add_turns_above (hj : j < n) (hlow : B.low j ≤ k) (hhigh : k + 1 ≤ B.high j) :
    (B.above j (k + 1) hhigh).turns n + (B.below j k hlow).turns n + 1 = B.turns n := by
  have hsize := size_below_add_size_above hj hlow hhigh
  have hbelow := (B.below j k hlow).size_pos n
  have habove := (B.above j (k + 1) hhigh).size_pos n
  rw [turns, turns, turns]
  omega

end Box

/-! ## Nodes in boxes -/

namespace Node

variable {node : Node Rat} {B : Box} {z v : Rat} {j : Nat}

/-- The feasible points of a node lie in a box. -/
def Within (p : Problem Rat) (node : Node Rat) (B : Box) : Prop :=
  ∀ x, (node.program p).Feasible x → ∀ j < p.numVars,
    (B.low j : Rat) ≤ x.getD j 0 ∧ x.getD j 0 ≤ (B.high j : Rat)

theorem Within.low {k : Nat} (h : node.Within p B) (hj : j < p.numVars) (hk : B.low j ≤ k)
    (hfloor : v.floor = k) : (node.low p z j v).Within p (B.below j k hk) := by
  intro x hx i hi
  obtain ⟨hnode, hbound⟩ := feasible_half_iff.mp hx
  have hbound := (VariableBound.holds_atMost hj).mp hbound
  rw [hfloor] at hbound
  exact ⟨(h x hnode i hi).1,
    (Function.forall_update_iff B.high fun i a => i < p.numVars → x.getD i 0 ≤ (a : Rat)).mpr
      ⟨fun _ => hbound, fun i _ hi => (h x hnode i hi).2⟩ i hi⟩

theorem Within.high {k : Nat} (h : node.Within p B) (hj : j < p.numVars) (hk : k ≤ B.high j)
    (hceil : v.ceil = k) : (node.high p z j v).Within p (B.above j k hk) := by
  intro x hx i hi
  obtain ⟨hnode, hbound⟩ := feasible_half_iff.mp hx
  have hbound := (VariableBound.holds_atLeast hj).mp hbound
  rw [hceil] at hbound
  exact ⟨(Function.forall_update_iff B.low fun i a => i < p.numVars → (a : Rat) ≤ x.getD i 0).mpr
    ⟨fun _ => hbound, fun i _ hi => (h x hnode i hi).1⟩ i hi, (h x hnode i hi).2⟩

/-- **The halves of a node take the turns of its box** without the one that splits it, where the
value that it is split at is that of a feasible point and not whole. -/
theorem Within.exists_halves (h : node.Within p B) (hj : j < p.numVars) {x : List Rat}
    (hx : (node.program p).Feasible x) (hv : 0 < wholeDistance (x.getD j 0)) :
    ∃ above below, (node.high p z j (x.getD j 0)).Within p above ∧
      (node.low p z j (x.getD j 0)).Within p below ∧
      above.turns p.numVars + below.turns p.numVars + 1 = B.turns p.numVars := by
  obtain ⟨hlow, hhigh⟩ := h x hx j hj
  have hfloor : (B.low j : Int) ≤ (x.getD j 0).floor := Rat.le_floor_iff.mpr hlow
  have hceil : (x.getD j 0).ceil ≤ B.high j := Rat.ceil_le_iff.mpr hhigh
  have hnext := ceil_eq_floor_add_one hv
  obtain ⟨k, hk⟩ := Int.eq_ofNat_of_zero_le (le_trans (Int.natCast_nonneg _) hfloor)
  have hk' : (x.getD j 0).ceil = ((k + 1 : Nat) : Int) := by rw [hnext, hk]; rfl
  have hlow : B.low j ≤ k := by omega
  have hhigh : k + 1 ≤ B.high j := by omega
  exact ⟨_, _, h.high hj hhigh hk', h.low hj hlow hk,
    Box.turns_below_add_turns_above hj hlow hhigh⟩

end Node

namespace Search

variable {st next : Search Rat} {node : Node Rat} {rest : List (Node Rat)} {outcome : Outcome}
  {total : Nat}

/-! ## Turns -/

/-- The open nodes lie in boxes, and the turns that were taken and those for the boxes come to no
more than a number. -/
def Budgeted (p : Problem Rat) (total : Nat) (st : Search Rat) : Prop :=
  ∃ boxes : List Box, List.Forall₂ (Node.Within p) st.stack boxes ∧
    st.explored + (boxes.map (Box.turns p.numVars)).sum ≤ total

namespace Budgeted

theorem explored_le (h : st.Budgeted p total) : st.explored ≤ total := by
  obtain ⟨boxes, -, hsum⟩ := h
  omega

/-- An open node has a turn left. -/
theorem explored_lt (h : st.Budgeted p total) (hne : st.stack ≠ []) : st.explored < total := by
  obtain ⟨boxes, hall, hsum⟩ := h
  obtain ⟨node, rest, hstack⟩ := List.exists_cons_of_ne_nil hne
  rw [hstack] at hall
  cases hall with
  | @cons _ B _ boxes _ _ =>
    have := B.turns_pos p.numVars
    rw [List.map_cons, List.sum_cons] at hsum
    omega

variable (hi : 0 ≤ s.integrality)
  (hfeasible : ∀ sol, outcome.solution? = some sol → sol.status = .optimal →
    (node.program p).Feasible sol.values)

include hi hfeasible

/-- **A turn keeps to the budget.** It uses up one of the turns for the box of its node, and the
halves of the node share out the others. -/
theorem advances (h : st.Budgeted p total) (ha : Advances p s st node rest outcome next) :
    next.Budgeted p total := by
  obtain ⟨boxes, hall, hsum⟩ := h
  have hexplored : next.explored = st.explored + 1 := ha.settles.explored
  have hnext : next.stack = outcome.halves p node ++ rest := ha.settles.stack
  rw [ha.stack] at hall
  cases hall with
  | @cons _ B _ boxes hnode hrest =>
    rw [List.map_cons, List.sum_cons] at hsum
    have hcloses : outcome.halves p node = [] → next.Budgeted p total := fun hnone => by
      have := B.turns_pos p.numVars
      rw [hnone, List.nil_append] at hnext
      exact ⟨boxes, hnext ▸ hrest, by omega⟩
    cases outcome with
    | split sol j =>
      obtain ⟨ho, -, hfound⟩ := ha.settles.fits
      obtain ⟨hj, hdistance⟩ := lt_distance_of_some hfound
      have hx := hfeasible sol rfl ho
      have hlen : sol.values.length = p.numVars := hx.length
      rw [← List.getD_eq_getElem _ (0 : Rat) hj] at hdistance
      obtain ⟨above, below, habove, hbelow, hturns⟩ :=
        hnode.exists_halves (z := sol.objectiveValue) (hlen ▸ hj) hx (hi.trans_lt hdistance)
      refine ⟨above :: below :: boxes, hnext ▸ .cons habove (.cons hbelow hrest), ?_⟩
      rw [List.map_cons, List.map_cons, List.sum_cons, List.sum_cons]
      omega
    | _ => exact hcloses rfl

end Budgeted

/-- No state on the way is stopped. -/
theorem Reaches.isExhausted_eq_false (hr : Reaches p s (start p) st) : st.isExhausted = false := by
  induction hr with
  | refl => rfl
  | tail _ hstep ih =>
    obtain ⟨node, rest, outcome, ha⟩ := advances_of_step hstep
    exact ha.settles.isExhausted.trans ih

/-- **Every state keeps to the budget** of the first one. -/
theorem Reaches.budgeted (hp : p.Regular) (hb : ∀ c ∈ p.constraints, 0 ≤ c.rhs) (hr : s.ratio = 0)
    (hf : s.feasibility = 0) (hi : 0 ≤ s.integrality) (hstart : (start p).Budgeted p total)
    (hreaches : Reaches p s (start p) st) : st.Budgeted p total := by
  induction hreaches with
  | refl => exact hstart
  | tail hprev hstep ih =>
    obtain ⟨node, rest, outcome, ha⟩ := advances_of_step hstep
    exact ih.advances hi
      (fun sol hsol ho => (ha.expands hprev hsol).feasible hp hb hr hf ho) ha

end Search

/-! ## The end -/

/-- A search is reported with the counts that it stopped with. -/
theorem searchInteger_search (p : Problem Rat) (s : Settings Rat) :
    (searchInteger p s).search.explored = (Search.run p s).1.explored ∧
      (searchInteger p s).search.isExhausted = (Search.run p s).1.isExhausted := by
  rw [searchInteger]
  obtain ⟨⟨final, stop⟩, hrun⟩ : ∃ e, Search.run p s = e := ⟨_, rfl⟩
  rw [hrun]
  cases stop with
  | some cause => exact ⟨rfl, rfl⟩
  | none =>
    simp only
    split
    · exact ⟨rfl, rfl⟩
    · exact ⟨rfl, rfl⟩

/-- A search whose states keep to a budget counts no more nodes, and a limit that is no less does
not stop it. -/
theorem Search.explored_le_of_budgeted {total : Nat}
    (h : ∀ st, Reaches p s (start p) st → st.Budgeted p total) :
    (searchInteger p s).search.explored ≤ total ∧
      (s.maxNodes.AtLeast total → (searchInteger p s).search.isExhausted = false) := by
  obtain ⟨last, hr, hstops⟩ := run_stops p s
  have hrunning := hr.isExhausted_eq_false
  have hlast := h last hr
  obtain ⟨hexplored, hexhausted⟩ := searchInteger_search p s
  rw [hexplored, hexhausted]
  obtain ⟨result, hrun⟩ : ∃ e, run p s = e := ⟨_, rfl⟩
  rw [hrun] at hstops ⊢
  cases hstops with
  | done _ => exact ⟨hlast.explored_le, fun _ => hrunning⟩
  | limit events hne hreached =>
    refine ⟨hlast.explored_le, fun hlimit => ?_⟩
    rw [hlimit.reachedBy_eq_false (hlast.explored_lt hne)] at hreached
    cases hreached
  | failed hstack _ =>
    exact ⟨hlast.explored_lt (by rw [hstack]; exact List.cons_ne_nil _ _), fun _ => hrunning⟩

/-- **How many nodes a search takes.** Where no feasible point has a coordinate above `U`, whole
numbers, a search counts at most `2 * ∏ (U j + 1) - 1` nodes, and a limit that is no less does not
stop it. With a variable or a constraint there is a column to choose from, and the search comes to
an answer. Neither the verdicts on the relaxations matter nor the limit on pivots. -/
theorem searchInteger_explored_le (hp : p.Regular) (hb : ∀ c ∈ p.constraints, 0 ≤ c.rhs)
    (hr : s.ratio = 0) (hf : s.feasibility = 0) (hi : 0 ≤ s.integrality) {U : Nat → Nat}
    (hU : ∀ x, p.Feasible x → ∀ j < p.numVars, x.getD j 0 ≤ (U j : Rat)) :
    (searchInteger p s).search.explored ≤ 2 * ∏ j ∈ Finset.range p.numVars, (U j + 1) - 1 ∧
      (s.maxNodes.AtLeast (2 * ∏ j ∈ Finset.range p.numVars, (U j + 1) - 1) →
        (searchInteger p s).search.isExhausted = false) ∧
      (p.HasColumn → ∃ answer, (searchInteger p s).answer = .ok answer) := by
  let B : Box := ⟨fun _ => 0, U, fun _ => Nat.zero_le _⟩
  have hB : B.turns p.numVars = 2 * ∏ j ∈ Finset.range p.numVars, (U j + 1) - 1 := rfl
  have hroot : Node.Within p ⟨p.constraints, none, 0⟩ B := fun x hx j hj =>
    ⟨by rw [Nat.cast_zero]; exact Problem.getD_nonneg hx.nonneg j, hU x hx j hj⟩
  have hstart : (Search.start p).Budgeted p (B.turns p.numVars) :=
    ⟨[B], .cons hroot .nil, by simp [Search.start]⟩
  obtain ⟨hle, hend⟩ := Search.explored_le_of_budgeted (s := s) fun _ hreaches =>
    hreaches.budgeted hp hb hr hf hi hstart
  rw [← hB]
  exact ⟨hle, hend, fun hc => exists_answer_eq_ok hp hc hr.ge⟩

/-- The tent lies in a box of twelve whole points. -/
theorem searchInteger_explored_le_tent :
    (searchInteger tent (.exact 100000)).search.explored ≤ 23 ∧
      (searchInteger tent (.exact 100000)).search.isExhausted = false ∧
      ∃ answer, (searchInteger tent (.exact 100000)).answer = .ok answer := by
  have hU : ∀ x, tent.Feasible x → ∀ j < tent.numVars,
      x.getD j 0 ≤ ((if j = 0 then 2 else 3 : Nat) : Rat) := by
    intro x hx j hj
    obtain ⟨a, b, rfl⟩ := List.length_eq_two.mp hx.length
    have ha : 0 ≤ a := hx.nonneg a (by simp)
    have hb : 0 ≤ b := hx.nonneg b (by simp)
    have hleft : 0 + -4 * a + 1 * b ≤ 1 := hx.holds ⟨[-4, 1], .atMost, 1⟩ (by simp [tent])
    have hright : 0 + 4 * a + 1 * b ≤ 5 := hx.holds ⟨[4, 1], .atMost, 5⟩ (by simp [tent])
    have hj : j < 2 := hj
    interval_cases j
    · show a ≤ 2
      linarith
    · show b ≤ 3
      linarith
  obtain ⟨hle, hend, hanswer⟩ := searchInteger_explored_le (s := .exact 100000) (by decide +kernel)
    (by decide +kernel) rfl rfl (le_refl _) hU
  have htotal : 2 * ∏ j ∈ Finset.range tent.numVars, ((if j = 0 then 2 else 3) + 1) - 1 = 23 := rfl
  rw [htotal] at hle hend
  exact ⟨hle, hend (show ((23 : Nat) : Rat) ≤ (5000 : Int) by decide +kernel),
    hanswer (.inl (by decide))⟩

end TableauSimplex
