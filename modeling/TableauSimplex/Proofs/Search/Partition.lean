import TableauSimplex.Proofs.Search.Verdict

/-!
# What a search divides the integer points into

A turn takes a node off the stack and either puts the two halves of it in its place or closes it for
good. So the integer points of a program are divided among the open and the closed nodes at every
state of a search, whatever comes of the relaxations: none is lost, and none is looked for twice
(`search_parts`). Coordinates may be negative here, as bounds on single variables do not care.

* `Node.Descends`: the constraints of a node are those of the program and as many bounds on single
  variables as the node is deep.
* `Search.Parts`: nodes that divide the integer points of a program. A turn keeps this
  (`Parts.advances`), since the halves of a node divide its points (`Node.union_halves`,
  `Node.disjoint_halves`).
* `Search.history`: a state of a search with the nodes that were closed on the way to it.
-/

namespace TableauSimplex

variable {p : Problem Rat} {s : Settings Rat}

/-- The points with whole coordinates that satisfy every constraint. -/
def Problem.wholePoints (p : Problem Rat) : Set (List Rat) :=
  {x | x.length = p.numVars ∧ (∀ a ∈ x, ∃ k : Int, (k : Rat) = a) ∧ ∀ c ∈ p.constraints, c.Holds x}

/-! ## Nodes and their halves -/

namespace Node

variable {node : Node Rat} {z v : Rat} {j : Nat} {x : List Rat}

/-- The points with whole coordinates that satisfy the constraints of a node. -/
def wholePoints (p : Problem Rat) (node : Node Rat) : Set (List Rat) := (node.program p).wholePoints

/-- The constraints of a node are those of the program, followed by as many bounds on single
variables as the node is deep. -/
def Descends (p : Problem Rat) (node : Node Rat) : Prop :=
  ∃ bounds : List VariableBound, bounds.length = node.depth ∧
    (∀ b ∈ bounds, b.index < p.numVars ∧ b.sign ≠ .equal) ∧
    node.constraints = p.constraints ++ bounds.map (·.constraint p.numVars)

theorem descends_root (p : Problem Rat) : Descends p ⟨p.constraints, none, 0⟩ :=
  ⟨[], rfl, nofun, (List.append_nil _).symm⟩

theorem Descends.half {b : VariableBound} (h : node.Descends p) (hj : b.index < p.numVars)
    (hsign : b.sign ≠ .equal) : (node.half p z b).Descends p := by
  obtain ⟨bounds, hlen, hall, hconstraints⟩ := h
  refine ⟨bounds ++ [b], ?_, ?_, ?_⟩
  · rw [List.length_append, hlen]
    rfl
  · intro b' hb'
    rcases List.mem_append.mp hb' with hb' | hb'
    · exact hall b' hb'
    · rw [List.mem_singleton.mp hb']
      exact ⟨hj, hsign⟩
  · show node.constraints ++ [b.constraint p.numVars] = _
    rw [hconstraints, List.map_append, List.append_assoc]
    rfl

theorem mem_wholePoints_half {b : VariableBound} :
    x ∈ (node.half p z b).wholePoints p ↔
      x ∈ node.wholePoints p ∧ (b.constraint p.numVars).Holds x := by
  constructor
  · rintro ⟨hlen, hw, hx⟩
    exact ⟨⟨hlen, hw, fun c hc => hx c (List.mem_append_left _ hc)⟩,
      hx _ (List.mem_append_right _ (List.mem_singleton.mpr rfl))⟩
  · rintro ⟨⟨hlen, hw, hx⟩, hb⟩
    refine ⟨hlen, hw, fun c hc => ?_⟩
    rcases List.mem_append.mp hc with hc | hc
    · exact hx c hc
    · rw [List.mem_singleton.mp hc]
      exact hb

/-- **The halves of a node hold all its integer points.** -/
theorem union_halves (hj : j < p.numVars) :
    (node.high p z j v).wholePoints p ∪ (node.low p z j v).wholePoints p = node.wholePoints p := by
  ext x
  rw [Set.mem_union, high, low, mem_wholePoints_half, mem_wholePoints_half, ← and_or_left,
    VariableBound.holds_atLeast hj, VariableBound.holds_atMost hj, and_iff_left_iff_imp]
  rintro ⟨hlen, hw, -⟩
  have hlen : x.length = p.numVars := hlen
  exact (le_floor_or_ceil_le hw (hlen ▸ hj) v).symm

/-- **No integer point lies in both halves** of a node, split at a value that is not whole. -/
theorem disjoint_halves (hj : j < p.numVars) (hv : 0 < wholeDistance v) :
    Disjoint ((node.high p z j v).wholePoints p) ((node.low p z j v).wholePoints p) := by
  rw [Set.disjoint_left]
  intro x hhigh hlow
  have hhigh := (VariableBound.holds_atLeast hj).mp (mem_wholePoints_half.mp hhigh).2
  have hlow := (VariableBound.holds_atMost hj).mp (mem_wholePoints_half.mp hlow).2
  have hle : v.ceil ≤ v.floor := Int.cast_le.mp (hhigh.trans hlow)
  rw [ceil_eq_floor_add_one hv] at hle
  omega

end Node

namespace Search

variable {st next : Search Rat} {node : Node Rat} {rest closed : List (Node Rat)}
  {outcome : Outcome}

/-! ## Open nodes -/

/-- **Every open node descends from the program.** -/
theorem Reaches.descends (hr : Reaches p s (start p) st) : ∀ node ∈ st.stack, node.Descends p := by
  refine hr.forall_mem_stack (Node.descends_root p) ?_
  intro node sol b h he _ hb
  have hlen := Node.length_values he.solves
  cases hb with
  | below hj => exact h.half (hlen ▸ hj) nofun
  | above hj => exact h.half (hlen ▸ hj) nofun

/-! ## The division of integer points -/

/-- The integer points of a program are divided among nodes. -/
structure Parts (p : Problem Rat) (nodes : List (Node Rat)) : Prop where
  disjoint : nodes.Pairwise fun a b => Disjoint (a.wholePoints p) (b.wholePoints p)
  union : ⋃ node ∈ nodes, node.wholePoints p = p.wholePoints

namespace Parts

theorem start (p : Problem Rat) : Parts p (start p).stack where
  disjoint := List.pairwise_singleton _ _
  union := by
    ext x
    simp only [Set.mem_iUnion₂, Search.start, List.mem_singleton, exists_prop, exists_eq_left]
    exact Iff.rfl

/-- The order of the nodes does not matter. -/
theorem perm {nodes' : List (Node Rat)} (h : Parts p nodes) (hperm : nodes.Perm nodes') :
    Parts p nodes' where
  disjoint := (hperm.pairwise_iff fun hd => hd.symm).mp h.disjoint
  union := by
    rw [← h.union]
    simp only [hperm.mem_iff]

/-- A node may be replaced by its halves. -/
theorem split {z v : Rat} {j : Nat} (h : Parts p (node :: rest)) (hj : j < p.numVars)
    (hv : 0 < wholeDistance v) : Parts p (node.high p z j v :: node.low p z j v :: rest) := by
  obtain ⟨hnode, hrest⟩ := List.pairwise_cons.mp h.disjoint
  have hunion := node.union_halves (z := z) (v := v) hj
  have hhigh : (node.high p z j v).wholePoints p ⊆ node.wholePoints p :=
    hunion ▸ Set.subset_union_left
  have hlow : (node.low p z j v).wholePoints p ⊆ node.wholePoints p :=
    hunion ▸ Set.subset_union_right
  -- Both halves lie in the node, and so apart from all other nodes.
  constructor
  · refine List.pairwise_cons.mpr ⟨List.forall_mem_cons.mpr ⟨node.disjoint_halves hj hv, ?_⟩,
      List.pairwise_cons.mpr ⟨?_, hrest⟩⟩
    · exact fun other hother => (hnode other hother).mono_left hhigh
    · exact fun other hother => (hnode other hother).mono_left hlow
  · rw [← h.union]
    simp only [List.mem_cons, Set.iUnion_iUnion_eq_or_left, ← Set.union_assoc, hunion]

end Parts

/-! ## Closed nodes -/

/-- The node that a turn takes off the stack, when nothing is put in its place. -/
def closedBy (st next : Search Rat) : List (Node Rat) :=
  match st.stack with
  | [] => []
  | node :: rest => if next.stack.length = rest.length then [node] else []

/-- A state of a search, and the nodes that were closed on the way to it, the last one first. -/
structure History where
  state : Search Rat
  closed : List (Node Rat)

/-- A search after a number of turns, if it goes on for as long. -/
def history (p : Problem Rat) (s : Settings Rat) : Nat → Option History
  | 0 => some ⟨start p, []⟩
  | n + 1 =>
    match history p s n with
    | none => none
    | some h =>
      match h.state.step p s with
      | .running next => some ⟨next, h.state.closedBy next ++ h.closed⟩
      | _ => none

/-- Every turn counts a node, so that a state has its number of turns in it. -/
theorem Reaches.exists_history (hr : Reaches p s (start p) st) :
    ∃ closed, history p s st.explored = some ⟨st, closed⟩ := by
  induction hr with
  | refl => exact ⟨[], rfl⟩
  | @tail mid next hprev hstep ih =>
    obtain ⟨closed, ih⟩ := ih
    obtain ⟨node, rest, outcome, ha⟩ := advances_of_step hstep
    have hexplored : next.explored = mid.explored + 1 := ha.settles.explored
    refine ⟨mid.closedBy next ++ closed, ?_⟩
    rw [hexplored, history, ih]
    simp only [hstep]

private theorem exists_of_history_succ {n : Nat} {h : History} (hh : history p s (n + 1) = some h) :
    ∃ h₀, history p s n = some h₀ ∧ h₀.state.step p s = .running h.state ∧
      h.closed = h₀.state.closedBy h.state ++ h₀.closed := by
  rw [history] at hh
  cases hprev : history p s n with
  | none =>
    rw [hprev] at hh
    cases hh
  | some h₀ =>
    rw [hprev] at hh
    simp only at hh
    split at hh
    · rename_i next hstep
      cases hh
      exact ⟨h₀, rfl, hstep, rfl⟩
    · cases hh

theorem reaches_of_history {n : Nat} {h : History} (hh : history p s n = some h) :
    Reaches p s (start p) h.state ∧ h.state.explored = n := by
  induction n generalizing h with
  | zero =>
    cases hh
    exact ⟨.refl, rfl⟩
  | succ n ih =>
    obtain ⟨h₀, hprev, hstep, -⟩ := exists_of_history_succ hh
    obtain ⟨hr, hn⟩ := ih hprev
    obtain ⟨node, rest, outcome, ha⟩ := advances_of_step hstep
    have hexplored : h.state.explored = h₀.state.explored + 1 := ha.settles.explored
    exact ⟨hr.tail hstep, by rw [hexplored, hn]⟩

/-! ## Turns -/

/-- **A turn keeps the division.** The halves of the node take its place, or else the node is closed
with all its points. -/
theorem Parts.advances (h : Parts p (st.stack ++ closed)) (hi : 0 ≤ s.integrality)
    (ha : Advances p s st node rest outcome next) :
    Parts p (next.stack ++ (st.closedBy next ++ closed)) := by
  have hnext : next.stack = outcome.halves p node ++ rest := ha.settles.stack
  have hkeeps : outcome.halves p node = [] →
      Parts p (next.stack ++ (st.closedBy next ++ closed)) := fun hnone => by
    rw [hnone, List.nil_append] at hnext
    rw [closedBy, ha.stack, hnext]
    simp only [if_true]
    rw [ha.stack] at h
    exact h.perm List.perm_middle.symm
  cases outcome with
  | split sol j =>
    obtain ⟨-, -, hfound⟩ := ha.settles.fits
    obtain ⟨hj, hdistance⟩ := lt_distance_of_some hfound
    have hlen := Node.length_values (ha.settles.solves sol rfl)
    have hne : next.stack.length ≠ rest.length := by
      rw [hnext, List.length_append]
      simp [Outcome.halves]
    rw [closedBy, ha.stack]
    simp only [if_neg hne, List.nil_append]
    rw [hnext]
    rw [ha.stack] at h
    refine h.split (hlen ▸ hj) ?_
    rw [List.getD_eq_getElem _ _ hj]
    exact hi.trans_lt hdistance
  | _ => exact hkeeps rfl

/-- **The integer points are divided at every state.** -/
theorem Parts.of_history (hi : 0 ≤ s.integrality) {n : Nat} {h : History}
    (hh : history p s n = some h) : Parts p (h.state.stack ++ h.closed) := by
  induction n generalizing h with
  | zero =>
    cases hh
    exact Parts.start p
  | succ n ih =>
    obtain ⟨h₀, hprev, hstep, hclosed⟩ := exists_of_history_succ hh
    obtain ⟨node, rest, outcome, ha⟩ := advances_of_step hstep
    rw [hclosed]
    exact (ih hprev).advances hi ha

end Search

/-- **What a search has divided the integer points into.** At every state that a search comes to, an
open node has the constraints of the program and as many bounds on single variables as it is deep.
The integer points that satisfy the constraints of the program are divided among the open nodes and
the nodes that were closed on the way, whatever the verdicts on the relaxations. -/
theorem search_parts (hi : 0 ≤ s.integrality) {st : Search Rat}
    (hr : Search.Reaches p s (Search.start p) st) :
    (∀ node ∈ st.stack, node.Descends p) ∧
      ∃ closed, Search.history p s st.explored = some ⟨st, closed⟩ ∧
        Search.Parts p (st.stack ++ closed) := by
  obtain ⟨closed, hh⟩ := hr.exists_history
  exact ⟨hr.descends, closed, hh, Search.Parts.of_history hi hh⟩

/-- The tent after two turns: it was split at its top, and the half to the right is closed. -/
theorem search_parts_tent :
    ∃ st low high, Search.Reaches tent (.exact 100000) (Search.start tent) st ∧
      st.stack = [low] ∧ Search.history tent (.exact 100000) 2 = some ⟨st, [high]⟩ ∧
      low.Descends tent ∧ low.depth = 1 ∧
      Disjoint (low.wholePoints tent) (high.wholePoints tent) ∧
      low.wholePoints tent ∪ high.wholePoints tent = tent.wholePoints := by
  have hsizes : (Search.history tent (.exact 100000) 2).map
      (fun h => (h.state.stack.map (·.depth), h.closed.length)) = some ([1], 1) := by decide +kernel
  obtain ⟨⟨st, closed⟩, hh, hsizes⟩ := Option.map_eq_some_iff.mp hsizes
  obtain ⟨hdepths, hclosed⟩ := Prod.mk.inj hsizes
  obtain ⟨low, hlow⟩ := List.length_eq_one_iff.mp
    (by rw [← List.length_map, hdepths]; rfl : st.stack.length = 1)
  obtain ⟨high, hhigh⟩ := List.length_eq_one_iff.mp hclosed
  obtain ⟨hr, hexplored⟩ := Search.reaches_of_history hh
  obtain ⟨hdescends, closed', hh', hparts⟩ := search_parts (le_refl _) hr
  rw [hexplored, hh] at hh'
  cases hh'
  subst hhigh
  rw [hlow] at hdescends hparts hdepths
  refine ⟨st, low, high, hr, hlow, hh, hdescends low (List.mem_singleton.mpr rfl),
    (List.cons.inj hdepths).1, ?_, ?_⟩
  · exact List.rel_of_pairwise_cons hparts.disjoint (List.mem_singleton.mpr rfl)
  · rw [← hparts.union]
    ext x
    simp

end TableauSimplex
