import TableauSimplex.CommandLine.Program
import TableauSimplex.Proofs.Success

/-!
# What a description comes to

A description comes to a program that goes with its lists, or it is refused with a message, or the
reading fails. It fails in three cases only: a number is too large to be a double, the names are
something that has no length, or a sign or the sense has too many levels to be named in a message.
`ofDocument_cases` says what comes of any description, and `ofDocument_tooLarge_iff`,
`ofDocument_wrongKind_iff` and `ofDocument_tooDeep_iff` say when the reading fails. A program that a
description comes to can be solved, unless it is empty (`solve_ofDocument`).

* `Error.IsRefusal`: the causes that a description is refused for.
* `Lists.Matching`: the lists of a description go together.
* `Json.Value.HoldsTooLarge`: a number of a description is too large.
* `Json.Value.TooDeep`: a value has too many levels to be named. `Lists.ComeToTooDeep` says that it
  is the first unknown value among the signs and the sense.
-/

namespace TableauSimplex

open CommandLine (Rejection)

/-! ## Refusals and failures -/

/-- A description can be mended for a cause, and is refused with its message. -/
def Error.IsRefusal (e : Error) : Prop := Rejection.ofError e = .input e.message

theorem Error.isRefusal_iff {e : Error} :
    e.IsRefusal ↔ e ≠ .tooLarge ∧ e ≠ .wrongKind ∧ e ≠ .tooDeep := by
  cases e <;> simp [IsRefusal, Rejection.ofError]

/-- A value could not be read, and if that is for a number that is too large, something is known of
it. -/
structure Error.IsMisread (known : Prop) (e : Error) : Prop where
  ne_tooDeep : e ≠ .tooDeep
  of_tooLarge : e = .tooLarge → known

theorem Error.IsMisread.imp {P Q : Prop} {e : Error} (h : e.IsMisread P) (hPQ : P → Q) :
    e.IsMisread Q :=
  ⟨h.ne_tooDeep, fun he => hPQ (h.of_tooLarge he)⟩

/-- A value is not among the words that it might be: it is refused, or it is too deep and something
is known of it. -/
def Error.IsUnknown (known : Prop) (e : Error) : Prop := e.IsRefusal ∨ e = .tooDeep ∧ known

theorem Error.IsUnknown.of_tooDeep {known : Prop} {e : Error} (h : e.IsUnknown known)
    (he : e = .tooDeep) : known := by
  rcases h with hrefusal | ⟨-, hknown⟩
  · exact absurd he (isRefusal_iff.mp hrefusal).2.2
  · exact hknown

theorem Error.IsUnknown.imp {P Q : Prop} {e : Error} (h : e.IsUnknown P) (hPQ : P → Q) :
    e.IsUnknown Q :=
  Or.imp_right (And.imp_right hPQ) h

/-! ## Values -/

namespace Json.Value

/-- A value has too many levels to be named in a message. -/
def TooDeep (v : Value) : Prop := mostLevels < v.levels

theorem not_tooDeep_text {s : String} : ¬(text s).TooDeep :=
  Nat.not_lt_of_le (show 1 ≤ mostLevels by decide)

/-- A value runs through a whole number that is too large to be a double. -/
def RunsThroughTooLarge (v : Value) : Prop :=
  ∃ items n, v.items? = some items ∧ .whole n ∈ items ∧ doubleRange ≤ n.natAbs

/-- Among the numbers of a description is one that is too large to be a double. -/
def HoldsTooLarge (document : Value) : Prop :=
  (∃ v, document.field? "c" = some v ∧ v.RunsThroughTooLarge) ∨
    (∃ v rows row, document.field? "A" = some v ∧ v.items? = some rows ∧ row ∈ rows ∧
      row.RunsThroughTooLarge) ∨
    ∃ v, document.field? "b" = some v ∧ v.RunsThroughTooLarge

end Json.Value

variable {document v : Json.Value} {sense : Option Json.Value} {lists : Lists}

theorem doubleOf_failsOnly :
    FailsOnly (Error.IsMisread (∃ n, v = .whole n ∧ doubleRange ≤ n.natAbs)) (doubleOf v) := by
  unfold doubleOf
  split
  · split
    · rename_i n hn
      exact .error ⟨nofun, fun _ => ⟨n, rfl, hn⟩⟩
    · exact .ok _
  · exact .ok _
  · exact .ok _
  · split
    · exact .ok _
    · exact .error ⟨nofun, nofun⟩
  · exact .error ⟨nofun, nofun⟩

theorem itemsOf_eq_ok_iff {items : List Json.Value} :
    itemsOf v = .ok items ↔ v.items? = some items := by
  unfold itemsOf
  split
  · rename_i h
    rw [h, Except.ok.injEq, Option.some.injEq]
  · rename_i h
    rw [h]
    exact ⟨nofun, nofun⟩

theorem itemsOf_failsOnly {known : Prop} : FailsOnly (Error.IsMisread known) (itemsOf v) := by
  unfold itemsOf
  split
  · exact .ok _
  · exact .error ⟨nofun, nofun⟩

theorem doublesOf_failsOnly :
    FailsOnly (Error.IsMisread v.RunsThroughTooLarge) (doublesOf v) :=
  itemsOf_failsOnly.bind fun items hitems => .mapM fun _ hu =>
    doubleOf_failsOnly.imp fun _ he => he.imp fun ⟨n, hn, hlarge⟩ =>
      ⟨items, n, itemsOf_eq_ok_iff.mp hitems, hn ▸ hu, hlarge⟩

/-! ## Lists -/

theorem field?_of_requiredField {key : String} (h : requiredField document key = .ok v) :
    document.field? key = some v := by
  unfold requiredField at h
  split at h
  · split at h
    · cases h
      assumption
    · cases h
  · cases h

theorem requiredField_failsOnly {known : Prop} {key : String} :
    FailsOnly (Error.IsMisread known) (requiredField document key) := by
  unfold requiredField
  split
  · split
    · exact .ok _
    · exact .error ⟨nofun, nofun⟩
  · exact .error ⟨nofun, nofun⟩

/-- **The lists of a description** are read unless something is not of the right form or a number is
too large. -/
theorem Lists.ofDocument_failsOnly :
    FailsOnly (Error.IsMisread document.HoldsTooLarge) (Lists.ofDocument document) := by
  refine requiredField_failsOnly.bind fun c hc => .bind ?_ fun _ _ =>
    requiredField_failsOnly.bind fun A hA =>
    itemsOf_failsOnly.bind fun rows hrows => .bind ?_ fun _ _ =>
    requiredField_failsOnly.bind fun b hb => .bind ?_ fun _ _ =>
    requiredField_failsOnly.bind fun _ _ => itemsOf_failsOnly.bind fun _ _ => .ok _
  · exact doublesOf_failsOnly.imp fun _ he =>
      he.imp fun h => .inl ⟨c, field?_of_requiredField hc, h⟩
  · exact .mapM fun row hrow => doublesOf_failsOnly.imp fun _ he => he.imp fun h =>
      .inr (.inl ⟨A, rows, row, field?_of_requiredField hA, itemsOf_eq_ok_iff.mp hrows, hrow, h⟩)
  · exact doublesOf_failsOnly.imp fun _ he =>
      he.imp fun h => .inr (.inr ⟨b, field?_of_requiredField hb, h⟩)

/-- The lists of a description go together: one row, bound and sign for every constraint, and one
coefficient in every row for each of the objective. -/
structure Lists.Matching (lists : Lists) : Prop where
  bounds : lists.bounds.length = lists.rows.length
  signs : lists.signs.length = lists.rows.length
  rows : ∀ row ∈ lists.rows, row.length = lists.objective.length

/-- Reading the lists fails for a number only; all other faults are named. -/
theorem Problem.ofDocument_of_error (sense : Option Json.Value) {e : Error}
    (h : Lists.ofDocument document = .error e) :
    Problem.ofDocument document sense = .error .tooLarge ∧ e = .tooLarge ∨
      ∃ e', Problem.ofDocument document sense = .error e' ∧ e'.IsRefusal := by
  have hmisread := Lists.ofDocument_failsOnly e h
  rw [Problem.ofDocument, h]
  by_cases hkind : e = .wrongKind
  · subst hkind
    exact .inr ⟨.notLists, rfl, rfl⟩
  · have hkeep : asLists (.error e : Except Error Lists) = .error e := by
      unfold asLists
      split
      · rename_i heq
        exact absurd (Except.error.inj heq) hkind
      · rfl
    rw [hkeep]
    by_cases hlarge : e = .tooLarge
    · exact .inl ⟨hlarge ▸ rfl, hlarge⟩
    · exact .inr ⟨e, rfl, Error.isRefusal_iff.mpr ⟨hlarge, hkind, hmisread.ne_tooDeep⟩⟩

/-- A description whose lists do not go together is refused. -/
theorem Problem.ofDocument_of_not_matching (sense : Option Json.Value)
    (h : Lists.ofDocument document = .ok lists) (hm : ¬lists.Matching) :
    ∃ e, Problem.ofDocument document sense = .error e ∧ e.IsRefusal := by
  by_cases hcount : lists.rows.length != lists.bounds.length ||
      lists.bounds.length != lists.signs.length
  · refine ⟨.unequalConstraints, ?_, rfl⟩
    rw [Problem.ofDocument, h]
    show (if _ then _ else _) = _
    rw [if_pos hcount]
    rfl
  · by_cases hrows : lists.rows.any (·.length != lists.objective.length)
    · refine ⟨.unequalRow, ?_, rfl⟩
      rw [Problem.ofDocument, h]
      show (if _ then _ else _) = _
      rw [if_neg hcount]
      show (if _ then _ else _) = _
      rw [if_pos hrows]
      rfl
    · simp only [Bool.or_eq_true, bne_iff_ne, ne_eq, not_or, not_not] at hcount
      simp only [List.any_eq_true, bne_iff_ne, ne_eq, not_exists, not_and, not_not] at hrows
      exact absurd ⟨hcount.1.symm, (hcount.1.trans hcount.2).symm, hrows⟩ hm

/-- What is left to read once the lists go together. -/
theorem Problem.ofDocument_of_matching (sense : Option Json.Value)
    (h : Lists.ofDocument document = .ok lists) (hm : lists.Matching) :
    Problem.ofDocument document sense =
      (itemsOf (namesOf document lists.objective.length) >>= fun names =>
        if names.length = lists.objective.length then
          constraintsOf lists >>= fun constraints =>
            Sense.ofJson (senseOf document sense) >>= fun sense =>
              .ok ⟨sense, names, lists.objective, constraints⟩
        else .error .unequalNames) := by
  have hcount : ¬(lists.rows.length != lists.bounds.length ||
      lists.bounds.length != lists.signs.length) = true := by
    simp [hm.bounds, hm.signs]
  have hrows : ¬lists.rows.any (·.length != lists.objective.length) = true := by
    simpa using hm.rows
  rw [Problem.ofDocument, h]
  show (if _ then _ else _) = _
  rw [if_neg hcount]
  show (if _ then _ else _) = _
  rw [if_neg hrows]
  simp only [nameCount]
  cases hnames : itemsOf (namesOf document lists.objective.length) with
  | error e => rfl
  | ok names =>
    show (if _ then _ else _) = (if _ then _ else _)
    by_cases hlen : names.length = lists.objective.length
    · rw [if_neg (by simpa using hlen), if_pos hlen]
      rfl
    · rw [if_pos (by simpa using hlen), if_neg hlen]
      rfl

/-! ## Names -/

/-- The names that a description gives have no length: a number or a truth value other than a no. -/
def Json.Value.HasUncountableNames (document : Json.Value) : Prop :=
  ∃ names, document.field? "variables" = some names ∧ names.isTruthy = true ∧ names.items? = none

theorem itemsOf_namesOf_failsOnly {count : Nat} :
    FailsOnly (fun e => e = .wrongKind ∧ document.HasUncountableNames)
      (itemsOf (namesOf document count)) := by
  unfold namesOf
  split
  · rename_i names hnames
    split
    · rename_i htruthy
      unfold itemsOf
      split
      · exact .ok _
      · rename_i hitems
        exact .error ⟨rfl, names, hnames, htruthy, hitems⟩
    · exact .ok _
  · exact .ok _

theorem itemsOf_namesOf {count : Nat} (h : document.HasUncountableNames) :
    itemsOf (namesOf document count) = .error .wrongKind := by
  obtain ⟨names, hnames, htruthy, hitems⟩ := h
  rw [namesOf, hnames]
  simp only
  rw [if_pos htruthy, itemsOf, hitems]

/-! ## Signs and the sense -/

/-- A value is the symbol of a relation. -/
def Json.Value.IsSign (v : Json.Value) : Prop := ∃ sign, Sign.ofJson v = .ok sign

theorem Error.isUnknown_naming (cause : Json.Value → Error) (h : ∀ v, (cause v).IsRefusal)
    (v : Json.Value) : (Error.naming cause v).IsUnknown v.TooDeep := by
  unfold Error.naming
  split
  · exact .inl (h v)
  · rename_i hlevels
    exact .inr ⟨rfl, Nat.lt_of_not_le hlevels⟩

theorem Error.naming_of_tooDeep (cause : Json.Value → Error) (h : v.TooDeep) :
    Error.naming cause v = .tooDeep := if_neg (Nat.not_le.mpr h)

theorem Sign.ofJson_failsOnly : FailsOnly (Error.IsUnknown v.TooDeep) (Sign.ofJson v) := by
  unfold Sign.ofJson
  split
  · exact .ok _
  · exact .ok _
  · exact .ok _
  · exact .error (Error.isUnknown_naming .unknownSign (fun _ => rfl) _)

theorem Sense.ofJson_failsOnly : FailsOnly (Error.IsUnknown v.TooDeep) (Sense.ofJson v) := by
  unfold Sense.ofJson
  split
  · exact .ok _
  · exact .ok _
  · exact .error (Error.isUnknown_naming .unknownSense (fun _ => rfl) _)

theorem Sign.ofJson_eq_tooDeep (h : v.TooDeep) : Sign.ofJson v = .error .tooDeep := by
  unfold ofJson
  split
  · exact absurd h Json.Value.not_tooDeep_text
  · exact absurd h Json.Value.not_tooDeep_text
  · exact absurd h Json.Value.not_tooDeep_text
  · rw [Error.naming_of_tooDeep _ h]

theorem Sense.ofJson_eq_tooDeep (h : v.TooDeep) : Sense.ofJson v = .error .tooDeep := by
  unfold ofJson
  split
  · exact absurd h Json.Value.not_tooDeep_text
  · exact absurd h Json.Value.not_tooDeep_text
  · rw [Error.naming_of_tooDeep _ h]

theorem Constraint.ofRow_failsOnly {row : List Float} {bound : Float} :
    FailsOnly (Error.IsUnknown v.TooDeep) (Constraint.ofRow row v bound) := by
  unfold Constraint.ofRow
  split
  · exact .ok _
  · rename_i hread
    exact .error (Sign.ofJson_failsOnly _ hread)
  · exact .error (.inl rfl)

theorem Constraint.ofRow_eq_ok_iff {row : List Float} {bound : Float} {c : Constraint Float} :
    Constraint.ofRow row v bound = .ok c ↔
      ∃ sign, Sign.ofJson v = .ok sign ∧ c = ⟨row, sign, bound⟩ := by
  unfold Constraint.ofRow
  split
  · rename_i hread
    simp only [hread, Except.ok.injEq, exists_eq_left', eq_comm]
  · rename_i hread
    simp [hread]
  · rename_i hread
    simp [hread]

theorem Constraint.exists_ofRow_iff {row : List Float} {bound : Float} :
    (∃ c, Constraint.ofRow row v bound = .ok c) ↔ v.IsSign := by
  constructor
  · rintro ⟨c, hc⟩
    obtain ⟨sign, hsign, -⟩ := ofRow_eq_ok_iff.mp hc
    exact ⟨sign, hsign⟩
  · rintro ⟨sign, hsign⟩
    exact ⟨_, ofRow_eq_ok_iff.mpr ⟨sign, hsign, rfl⟩⟩

theorem Constraint.ofRow_eq_tooDeep {row : List Float} {bound : Float} (h : v.TooDeep) :
    Constraint.ofRow row v bound = .error .tooDeep := by
  rw [Constraint.ofRow, Sign.ofJson_eq_tooDeep h]

/-- The signs that stand in the parts of the constraints. -/
theorem Lists.Matching.map_zip (hm : lists.Matching) :
    (lists.rows.zip (lists.signs.zip lists.bounds)).map (·.2.1) = lists.signs := by
  have hle : lists.signs.length ≤ lists.bounds.length := (hm.signs.trans hm.bounds.symm).le
  have hzip : (lists.signs.zip lists.bounds).length ≤ lists.rows.length := by
    rw [List.length_zip, min_eq_left hle, hm.signs]
  show (lists.rows.zip (lists.signs.zip lists.bounds)).map (Prod.fst ∘ Prod.snd) = _
  rw [← List.map_map, List.map_snd_zip hzip, List.map_fst_zip hle]

/-- The first of the signs that is none of the three is too deep. -/
def Lists.FirstUnknownTooDeep (lists : Lists) : Prop :=
  ∃ before v after, lists.signs = before ++ v :: after ∧ (∀ u ∈ before, u.IsSign) ∧ v.TooDeep

/-- The constraints can be read exactly when all signs are known. -/
theorem Lists.Matching.exists_constraintsOf_iff (hm : lists.Matching) :
    (∃ constraints, constraintsOf lists = .ok constraints) ↔ ∀ v ∈ lists.signs, v.IsSign := by
  rw [← hm.map_zip, List.forall_mem_map]
  constructor
  · rintro ⟨constraints, h⟩ part hpart
    obtain ⟨i, hi⟩ := List.mem_iff_getElem?.mp hpart
    obtain ⟨c, hc, -⟩ := getElem?_of_mapM_eq_ok h hi
    exact Constraint.exists_ofRow_iff.mp ⟨c, hc⟩
  · intro h
    exact exists_mapM_eq_ok fun part hpart => Constraint.exists_ofRow_iff.mpr (h part hpart)

theorem Lists.Matching.constraintsOf_failsOnly (hm : lists.Matching) :
    FailsOnly (Error.IsUnknown lists.FirstUnknownTooDeep) (constraintsOf lists) := by
  intro e he
  obtain ⟨before, ⟨row, v, bound⟩, after, hparts, hbefore, hv⟩ := mapM_eq_error_iff.mp he
  refine (Constraint.ofRow_failsOnly e hv).imp fun hdeep => ⟨before.map (·.2.1), v,
    after.map (·.2.1), by rw [← hm.map_zip, hparts, List.map_append, List.map_cons], ?_, hdeep⟩
  exact List.forall_mem_map.mpr fun part hpart =>
    Constraint.exists_ofRow_iff.mp (hbefore part hpart)

theorem Lists.Matching.constraintsOf_eq_tooDeep (hm : lists.Matching)
    (h : lists.FirstUnknownTooDeep) : constraintsOf lists = .error .tooDeep := by
  obtain ⟨before, v, after, hsigns, hbefore, hv⟩ := h
  rw [← hm.map_zip] at hsigns
  obtain ⟨parts, others, hparts, rfl, hothers⟩ := List.map_eq_append_iff.mp hsigns
  obtain ⟨part, rest, rfl, rfl, rfl⟩ := List.map_eq_cons_iff.mp hothers
  exact mapM_eq_error_iff.mpr ⟨parts, part, rest, hparts, fun q hq =>
    Constraint.exists_ofRow_iff.mpr (List.forall_mem_map.mp hbefore q hq),
    Constraint.ofRow_eq_tooDeep hv⟩

/-- A sense that is not given is known, so that only one that is given can be too deep. -/
theorem ofJson_senseOf_failsOnly :
    FailsOnly (Error.IsUnknown (∃ v, sense = some v ∧ v.TooDeep))
      (Sense.ofJson (senseOf document sense)) := by
  cases sense with
  | some v => exact Sense.ofJson_failsOnly.imp fun _ he => he.imp fun hdeep => ⟨v, rfl, hdeep⟩
  | none =>
    rw [senseOf]
    split
    · exact .ok _
    · exact .ok _

/-- Whatever comes first of the values that are unknown is too deep: a sign, or, where all signs are
known, the sense that is given. -/
def Lists.ComeToTooDeep (lists : Lists) (sense : Option Json.Value) : Prop :=
  lists.FirstUnknownTooDeep ∨
    (∀ v ∈ lists.signs, v.IsSign) ∧ ∃ v, sense = some v ∧ v.TooDeep

/-! ## Programs -/

/-- A program goes with the lists that it is made of: a name for every coefficient of the objective,
a constraint for every row, bound and sign, and as many coefficients in each. -/
structure Problem.GoesWith (p : Problem Float) (lists : Lists) : Prop where
  objective : p.objective = lists.objective
  names : p.names.length = p.objective.length
  coefficients : ∀ c ∈ p.constraints, c.coefficients.length = p.objective.length
  rows : p.constraints.length = lists.rows.length
  bounds : p.constraints.length = lists.bounds.length
  signs : p.constraints.length = lists.signs.length

theorem Lists.Matching.length_constraintsOf (hm : lists.Matching)
    {constraints : List (Constraint Float)} (h : constraintsOf lists = .ok constraints) :
    constraints.length = lists.rows.length := by
  have hzip := (mapM_eq_ok_iff.mp h).length_eq
  rw [List.length_zip, List.length_zip, hm.signs, hm.bounds, min_self, min_self] at hzip
  exact hzip.symm

theorem Lists.Matching.coefficients_constraintsOf (hm : lists.Matching)
    {constraints : List (Constraint Float)} (h : constraintsOf lists = .ok constraints) :
    ∀ c ∈ constraints, c.coefficients.length = lists.objective.length := by
  intro c hc
  obtain ⟨⟨row, sign, bound⟩, hmem, hread⟩ := exists_of_mem_of_mapM_eq_ok h hc
  obtain ⟨_, -, rfl⟩ := Constraint.ofRow_eq_ok_iff.mp hread
  exact hm.rows row (List.of_mem_zip hmem).1

/-- The lists of a description are read and go together, and there is a name for every coefficient
of the objective. -/
structure Lists.ReadyIn (lists : Lists) (document : Json.Value) : Prop where
  read : Lists.ofDocument document = .ok lists
  matching : lists.Matching
  names : ∃ names, itemsOf (namesOf document lists.objective.length) = .ok names ∧
    names.length = lists.objective.length

/-- **What comes of lists that go together:** a program that goes with them, a refusal, or a failure
over the names or over a value that is too deep. -/
theorem Problem.ofDocument_cases_of_matching (sense : Option Json.Value)
    (h : Lists.ofDocument document = .ok lists) (hm : lists.Matching) :
    (∃ p, Problem.ofDocument document sense = .ok p ∧ p.GoesWith lists) ∨
      (∃ e, Problem.ofDocument document sense = .error e ∧
        e.IsUnknown (lists.ReadyIn document ∧ lists.ComeToTooDeep sense)) ∨
      Problem.ofDocument document sense = .error .wrongKind ∧ document.HasUncountableNames := by
  rw [Problem.ofDocument_of_matching sense h hm]
  cases hnames : itemsOf (namesOf document lists.objective.length) with
  | error e =>
    obtain ⟨rfl, hcount⟩ := itemsOf_namesOf_failsOnly e hnames
    exact .inr (.inr ⟨rfl, hcount⟩)
  | ok names =>
    by_cases hlen : names.length = lists.objective.length
    · simp only [bind, Except.bind, if_pos hlen]
      have hready : lists.ReadyIn document := ⟨h, hm, names, hnames, hlen⟩
      cases hconstraints : constraintsOf lists with
      | error e =>
        exact .inr (.inl ⟨e, rfl, (hm.constraintsOf_failsOnly e hconstraints).imp fun hdeep =>
          ⟨hready, .inl hdeep⟩⟩)
      | ok constraints =>
        cases hsense : Sense.ofJson (senseOf document sense) with
        | error e =>
          exact .inr (.inl ⟨e, rfl, (ofJson_senseOf_failsOnly e hsense).imp fun hdeep =>
            ⟨hready, .inr ⟨hm.exists_constraintsOf_iff.mp ⟨_, hconstraints⟩, hdeep⟩⟩⟩)
        | ok direction =>
          have hrows := hm.length_constraintsOf hconstraints
          exact .inl ⟨_, rfl, {
            objective := rfl
            names := hlen
            coefficients := hm.coefficients_constraintsOf hconstraints
            rows := hrows
            bounds := hrows.trans hm.bounds.symm
            signs := hrows.trans hm.signs.symm }⟩
    · simp only [bind, Except.bind, if_neg hlen]
      exact .inr (.inl ⟨_, rfl, .inl rfl⟩)

/-- **What a description comes to:** a program that goes with its lists, a refusal, or one of three
failures: over a number that is too large, or, after the lists, over names that have no length or
over a sign or a sense that is too deep. -/
theorem Problem.ofDocument_cases (document : Json.Value) (sense : Option Json.Value) :
    (∃ p lists, Problem.ofDocument document sense = .ok p ∧
      Lists.ofDocument document = .ok lists ∧ p.GoesWith lists) ∨
    (∃ e, Problem.ofDocument document sense = .error e ∧ e.IsRefusal) ∨
    (Problem.ofDocument document sense = .error .tooLarge ∧
      Lists.ofDocument document = .error .tooLarge ∧ document.HoldsTooLarge) ∨
    (Problem.ofDocument document sense = .error .wrongKind ∧ document.HasUncountableNames ∧
      ∃ lists, Lists.ofDocument document = .ok lists ∧ lists.Matching) ∨
    (Problem.ofDocument document sense = .error .tooDeep ∧
      ∃ lists : Lists, lists.ReadyIn document ∧ lists.ComeToTooDeep sense) := by
  cases hlists : Lists.ofDocument document with
  | error e =>
    rcases Problem.ofDocument_of_error sense hlists with ⟨hlarge, rfl⟩ | hrefused
    · exact .inr (.inr (.inl ⟨hlarge, rfl,
        (Lists.ofDocument_failsOnly _ hlists).of_tooLarge rfl⟩))
    · exact .inr (.inl hrefused)
  | ok lists =>
    by_cases hm : lists.Matching
    · rcases Problem.ofDocument_cases_of_matching sense hlists hm with
        ⟨p, hp, hgoes⟩ | ⟨e, he, hrefusal | ⟨rfl, hdeep⟩⟩ | ⟨hkind, hnames⟩
      · exact .inl ⟨p, lists, hp, rfl, hgoes⟩
      · exact .inr (.inl ⟨e, he, hrefusal⟩)
      · exact .inr (.inr (.inr (.inr ⟨he, lists, hdeep⟩)))
      · exact .inr (.inr (.inr (.inl ⟨hkind, hnames, lists, rfl, hm⟩)))
    · exact .inr (.inl (Problem.ofDocument_of_not_matching sense hlists hm))

/-- **The reading fails over a number** exactly when that of the lists does. -/
theorem Problem.ofDocument_tooLarge_iff :
    Problem.ofDocument document sense = .error .tooLarge ↔
      Lists.ofDocument document = .error .tooLarge := by
  constructor
  · intro h
    rcases Problem.ofDocument_cases document sense with
      ⟨p, lists, hp, -⟩ | ⟨e, he, hrefusal⟩ | ⟨-, hlists, -⟩ | ⟨hkind, -⟩ | ⟨hdeep, -⟩
    · cases h.symm.trans hp
    · cases h.symm.trans he
      exact absurd rfl (Error.isRefusal_iff.mp hrefusal).1
    · exact hlists
    · cases h.symm.trans hkind
    · cases h.symm.trans hdeep
  · intro h
    rw [Problem.ofDocument, h]
    rfl

example : Problem.ofDocument (.object [("c", .list [.whole doubleRange])]) none =
    .error .tooLarge := rfl

/-- **The reading fails over the names** exactly when they have no length and the lists can be read
and go together. -/
theorem Problem.ofDocument_wrongKind_iff :
    Problem.ofDocument document sense = .error .wrongKind ↔
      document.HasUncountableNames ∧
        ∃ lists, Lists.ofDocument document = .ok lists ∧ lists.Matching := by
  constructor
  · intro h
    rcases Problem.ofDocument_cases document sense with
      ⟨p, lists, hp, -⟩ | ⟨e, he, hrefusal⟩ | ⟨hlarge, -⟩ | ⟨-, hnames⟩ | ⟨hdeep, -⟩
    · cases h.symm.trans hp
    · cases h.symm.trans he
      exact absurd rfl (Error.isRefusal_iff.mp hrefusal).2.1
    · cases h.symm.trans hlarge
    · exact hnames
    · cases h.symm.trans hdeep
  · rintro ⟨hnames, lists, hlists, hm⟩
    rw [Problem.ofDocument_of_matching sense hlists hm, itemsOf_namesOf hnames]
    rfl

example : Problem.ofDocument (.object [("c", .list []), ("A", .list []), ("b", .list []),
    ("senses", .list []), ("variables", .whole 5)]) none = .error .wrongKind := rfl

/-- **The reading fails over depth** exactly when the lists and the names are there and whatever
comes first of the unknown values is too deep. -/
theorem Problem.ofDocument_tooDeep_iff :
    Problem.ofDocument document sense = .error .tooDeep ↔
      ∃ lists : Lists, lists.ReadyIn document ∧ lists.ComeToTooDeep sense := by
  constructor
  · intro h
    rcases Problem.ofDocument_cases document sense with
      ⟨p, lists, hp, -⟩ | ⟨e, he, hrefusal⟩ | ⟨hlarge, -⟩ | ⟨hkind, -⟩ | ⟨-, hdeep⟩
    · cases h.symm.trans hp
    · cases h.symm.trans he
      exact absurd rfl (Error.isRefusal_iff.mp hrefusal).2.2
    · cases h.symm.trans hlarge
    · cases h.symm.trans hkind
    · exact hdeep
  · rintro ⟨lists, ⟨hlists, hm, names, hnames, hlen⟩, hdeep⟩
    rw [Problem.ofDocument_of_matching sense hlists hm, hnames]
    simp only [bind, Except.bind, if_pos hlen]
    rcases hdeep with hsign | ⟨hsigns, v, rfl, hv⟩
    · rw [hm.constraintsOf_eq_tooDeep hsign]
    · obtain ⟨constraints, hconstraints⟩ := hm.exists_constraintsOf_iff.mpr hsigns
      rw [hconstraints]
      simp only [senseOf, Sense.ofJson_eq_tooDeep hv]

/-! ## Solving what is described -/

variable {α β : Type}

/-- A constraint with other numbers. -/
def Constraint.mapNumbers (f : α → β) (c : Constraint α) : Constraint β :=
  ⟨c.coefficients.map f, c.sign, f c.rhs⟩

/-- A program with other numbers. -/
def Problem.mapNumbers (f : α → β) (p : Problem α) : Problem β :=
  ⟨p.sense, p.names, p.objective.map f, p.constraints.map (·.mapNumbers f)⟩

variable {p : Problem Float} {s : Settings Rat}

/-- A program that goes with its lists is regular, whatever rationals its numbers are taken for. -/
theorem Problem.GoesWith.regular_mapNumbers (h : p.GoesWith lists) (value : Float → Rat) :
    (p.mapNumbers value).Regular where
  objective := (List.length_map _).trans h.names.symm
  constraints := List.forall_mem_map.mpr fun c hc =>
    (List.length_map _).trans ((h.coefficients c hc).trans h.names.symm)

/-- **The program that a description comes to can be solved,** whatever rationals its numbers are
taken for, with a value for every variable and a price for every constraint. Only the empty program
cannot: it has no column to choose from. -/
theorem solve_ofDocument (h : Problem.ofDocument document sense = .ok p) (value : Float → Rat)
    (hs : s.check = .ok ()) (withGraph : Bool) :
    ((p.names ≠ [] ∨ p.constraints ≠ []) ∧ ∃ sol,
      solve (p.mapNumbers value) s withGraph = .ok sol ∧
      sol.values.length = p.names.length ∧ sol.shadowPrices.length = p.constraints.length) ∨
    (p.names = [] ∧ p.constraints = [] ∧
      solve (p.mapNumbers value) s withGraph = .error .noColumns) := by
  obtain ⟨p', lists, hp', -, hgoes⟩ | ⟨e, he, -⟩ | ⟨he, -⟩ | ⟨he, -⟩ | ⟨he, -⟩ :=
    Problem.ofDocument_cases document sense
  · cases h.symm.trans hp'
    have hcolumn : (p.mapNumbers value).HasColumn ↔ p.names ≠ [] ∨ p.constraints ≠ [] := by
      rw [Problem.HasColumn, Problem.numVars, List.length_pos_iff]
      exact or_congr_right (not_congr List.map_eq_nil_iff)
    obtain ⟨hc, sol, hsol, hvalues, hprices⟩ | ⟨hc, hfails⟩ :=
      solve_cases (hgoes.regular_mapNumbers value) hs withGraph
    · exact .inl ⟨hcolumn.mp hc, sol, hsol, hvalues, hprices.trans (List.length_map _)⟩
    · rw [hcolumn, not_or, not_not, not_not] at hc
      exact .inr ⟨hc.1, hc.2, hfails⟩
  · cases h.symm.trans he
  · cases h.symm.trans he
  · cases h.symm.trans he
  · cases h.symm.trans he

example : Problem.ofDocument (.object [("c", .list []), ("A", .list []), ("b", .list []),
    ("senses", .list [])]) none = .ok ⟨.maximize, [], [], []⟩ := rfl

end TableauSimplex
