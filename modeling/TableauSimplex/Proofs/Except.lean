import Mathlib

/-!
# Steps and traversals that may fail

A result of two steps in turn is a result of both (`exists_of_bind_eq_ok`, `exists_bind_eq_ok`).
A list is traversed without failure when no item fails, and item by item gives what the items give.
A traversal that fails does it at the first item that does (`mapM_eq_error_iff`). What a computation
can fail with (`FailsOnly`) is found part by part.
-/

namespace TableauSimplex

variable {ε β γ : Type}

theorem exists_of_bind_eq_ok {x : Except ε β} {f : β → Except ε γ} {c : γ}
    (h : (x >>= f) = .ok c) : ∃ b, x = .ok b ∧ f b = .ok c := by
  cases x with
  | error e => cases h
  | ok b => exact ⟨b, rfl, h⟩

/-- Two steps in turn succeed when the first one does and the second one does after it. -/
theorem exists_bind_eq_ok {x : Except ε β} {f : β → Except ε γ} (hx : ∃ b, x = .ok b)
    (hf : ∀ b, x = .ok b → ∃ c, f b = .ok c) : ∃ c, (x >>= f) = .ok c := by
  obtain ⟨b, rfl⟩ := hx
  exact hf b rfl

/-- A result without content is there when the computed test says so. -/
theorem eq_ok_of_isOk {x : Except ε Unit} (h : x.isOk = true) : x = .ok () := by
  cases x with
  | error e => cases h
  | ok u => rfl

/-- A result has what is computed of it. -/
theorem exists_of_toOption_any (x : Except ε β) (P : β → Prop) [DecidablePred P]
    (h : x.toOption.any (P ·) = true) : ∃ b, x = .ok b ∧ P b := by
  cases x with
  | error e => cases h
  | ok b => exact ⟨b, rfl, of_decide_eq_true h⟩

theorem mapM_eq_ok {f : β → Except ε γ} {g : β → γ} {xs : List β}
    (h : ∀ x ∈ xs, f x = .ok (g x)) : xs.mapM f = .ok (xs.map g) := by
  induction xs with
  | nil => rfl
  | cons x xs ih =>
    rw [List.mapM_cons, h x List.mem_cons_self, ih fun y hy => h y (List.mem_cons_of_mem _ hy)]
    rfl

/-- A traversal fails as the first item does that fails. -/
theorem mapM_eq_error_iff {f : β → Except ε γ} {xs : List β} {e : ε} :
    xs.mapM f = .error e ↔ ∃ before x after, xs = before ++ x :: after ∧
      (∀ y ∈ before, ∃ z, f y = .ok z) ∧ f x = .error e := by
  induction xs with
  | nil =>
    constructor
    · intro h
      cases h
    · rintro ⟨before, x, after, h, -⟩
      exact absurd h.symm (List.append_ne_nil_of_right_ne_nil _ (List.cons_ne_nil _ _))
  | cons x xs ih =>
    rw [List.mapM_cons]
    constructor
    · intro h
      cases hx : f x with
      | error e' =>
        rw [hx] at h
        cases h
        exact ⟨[], x, xs, rfl, nofun, hx⟩
      | ok z =>
        rw [hx] at h
        cases hxs : xs.mapM f with
        | error e' =>
          rw [hxs] at h
          cases h
          obtain ⟨before, y, after, rfl, hbefore, hy⟩ := ih.mp hxs
          exact ⟨x :: before, y, after, rfl, List.forall_mem_cons.mpr ⟨⟨z, hx⟩, hbefore⟩, hy⟩
        | ok ys =>
          rw [hxs] at h
          cases h
    · rintro ⟨before, y, after, heq, hbefore, hy⟩
      cases before with
      | nil =>
        cases heq
        rw [hy]
        rfl
      | cons first before =>
        cases heq
        obtain ⟨⟨z, hz⟩, hbefore⟩ := List.forall_mem_cons.mp hbefore
        rw [hz, ih.mpr ⟨before, y, after, rfl, hbefore, hy⟩]
        rfl

theorem exists_of_mapM_eq_error {f : β → Except ε γ} {xs : List β} {e : ε}
    (h : xs.mapM f = .error e) : ∃ x ∈ xs, f x = .error e := by
  obtain ⟨before, x, after, rfl, -, hx⟩ := mapM_eq_error_iff.mp h
  exact ⟨x, List.mem_append_cons_self, hx⟩

/-- A traversal gives a list when every item gives something. -/
theorem exists_mapM_eq_ok {f : β → Except ε γ} {xs : List β} (h : ∀ x ∈ xs, ∃ y, f x = .ok y) :
    ∃ ys, xs.mapM f = .ok ys := by
  cases hxs : xs.mapM f with
  | ok ys => exact ⟨ys, rfl⟩
  | error e =>
    obtain ⟨x, hx, he⟩ := exists_of_mapM_eq_error hxs
    obtain ⟨y, hy⟩ := h x hx
    rw [he] at hy
    cases hy

/-- A traversal gives a list exactly when every item gives the one in its place. -/
theorem mapM_eq_ok_iff {f : β → Except ε γ} {xs : List β} {ys : List γ} :
    xs.mapM f = .ok ys ↔ List.Forall₂ (fun x y => f x = .ok y) xs ys := by
  induction xs generalizing ys with
  | nil =>
    rw [List.forall₂_nil_left_iff]
    exact ⟨fun h => (Except.ok.inj h).symm, fun h => h ▸ rfl⟩
  | cons x xs ih =>
    rw [List.mapM_cons, List.forall₂_cons_left_iff]
    constructor
    · intro h
      obtain ⟨y, hy, h⟩ := exists_of_bind_eq_ok h
      obtain ⟨rest, hrest, h⟩ := exists_of_bind_eq_ok h
      cases h
      exact ⟨y, rest, hy, ih.mp hrest, rfl⟩
    · rintro ⟨y, rest, hy, hrest, rfl⟩
      rw [hy, ih.mpr hrest]
      rfl

/-- Everything in the result comes from an item. -/
theorem exists_of_mem_of_mapM_eq_ok {f : β → Except ε γ} {xs : List β} {ys : List γ} {y : γ}
    (h : xs.mapM f = .ok ys) (hy : y ∈ ys) : ∃ x ∈ xs, f x = .ok y := by
  have hall := mapM_eq_ok_iff.mp h
  obtain ⟨i, hi, rfl⟩ := List.getElem_of_mem hy
  have hi' : i < xs.length := hall.length_eq ▸ hi
  exact ⟨xs[i], List.getElem_mem hi', hall.get hi' hi⟩

/-- The item at a place gives what stands in that place of the result. -/
theorem getElem?_of_mapM_eq_ok {f : β → Except ε γ} {xs : List β} {ys : List γ} {i : Nat} {x : β}
    (h : xs.mapM f = .ok ys) (hx : xs[i]? = some x) : ∃ y, f x = .ok y ∧ ys[i]? = some y := by
  have hall := mapM_eq_ok_iff.mp h
  obtain ⟨hi, rfl⟩ := List.getElem?_eq_some_iff.mp hx
  have hi' : i < ys.length := hall.length_eq ▸ hi
  exact ⟨ys[i], hall.get hi hi', List.getElem?_eq_getElem hi'⟩

/-- With one item replaced, the result changes in its place alone. -/
theorem mapM_set_eq_ok {f : β → Except ε γ} {xs : List β} {ys : List γ} {x : β} {y : γ}
    (h : xs.mapM f = .ok ys) (hx : f x = .ok y) (i : Nat) :
    (xs.set i x).mapM f = .ok (ys.set i y) := by
  have hall := mapM_eq_ok_iff.mp h
  have hlen : (xs.set i x).length = (ys.set i y).length := by
    rw [List.length_set, List.length_set, hall.length_eq]
  refine mapM_eq_ok_iff.mpr (List.forall₂_iff_get.mpr ⟨hlen, fun k hk hk' => ?_⟩)
  rw [List.length_set] at hk hk'
  simp only [List.get_eq_getElem, List.getElem_set]
  split
  · exact hx
  · exact hall.get hk hk'

/-! ## Failures of one kind -/

/-- Whatever the computation fails with is of one kind. -/
def FailsOnly (P : ε → Prop) (x : Except ε β) : Prop := ∀ e, x = .error e → P e

namespace FailsOnly

variable {P : ε → Prop} {x : Except ε β}

theorem ok (b : β) : FailsOnly P (.ok b) := nofun

theorem error {e : ε} (h : P e) : FailsOnly P (.error e : Except ε β) := by
  rintro _ ⟨⟩
  exact h

theorem imp {Q : ε → Prop} (hx : FailsOnly P x) (h : ∀ e, P e → Q e) : FailsOnly Q x :=
  fun e he => h e (hx e he)

theorem bind {f : β → Except ε γ} (hx : FailsOnly P x)
    (hf : ∀ b, x = .ok b → FailsOnly P (f b)) : FailsOnly P (x >>= f) := by
  cases x with
  | error e => exact .error (hx e rfl)
  | ok b => exact hf b rfl

theorem mapM {f : β → Except ε γ} {xs : List β} (h : ∀ y ∈ xs, FailsOnly P (f y)) :
    FailsOnly P (xs.mapM f) := fun e he => by
  obtain ⟨y, hy, hfail⟩ := exists_of_mapM_eq_error he
  exact h y hy e hfail

end FailsOnly

end TableauSimplex
