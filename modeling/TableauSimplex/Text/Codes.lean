/-!
# The code points of a text

Text that arrives as units of sixteen bits may hold half of a surrogate pair alone, and such a half
is no character. A string keeps a half as the private-use character that lies `2 ^ 20` above it. A
character that could be taken for a half is kept with a sign before it, and so is the sign itself.

* `ofCodes`, `codes`: the string that keeps code points, and the code points that a string keeps.
* `joinUnits`, `unitsOf`: code points from units of sixteen bits, and the units of a code point.
* `codesOf_keep`: nothing is lost in a string.
-/

namespace TableauSimplex.Text

/-- A unit that opens a pair. -/
def isHighHalf (unit : Nat) : Bool := 0xD800 ≤ unit && unit < 0xDC00

/-- A unit that closes a pair. -/
def isLowHalf (unit : Nat) : Bool := 0xDC00 ≤ unit && unit < 0xE000

/-- Half of a surrogate pair. -/
def isHalf (code : Nat) : Bool := 0xD800 ≤ code && code < 0xE000

/-- How far above a half the character lies that keeps it. -/
def halfOffset : Nat := 0x100000

/-- The number of the sign. The characters that keep halves come right after it. -/
def signCode : Nat := 0x10D7FF

/-- The sign before a character that stands for itself. -/
def sign : Char := Char.ofNat signCode

/-- The characters that could be taken for the sign or for a half. -/
def isAmbiguous (code : Nat) : Bool := signCode ≤ code && code < halfOffset + 0xE000

/-- The characters that keep a code point. -/
def keepCode (code : Nat) : List Char :=
  if isHalf code then [Char.ofNat (halfOffset + code)]
  else if isAmbiguous code then [sign, Char.ofNat code]
  else [Char.ofNat code]

/-- The characters that keep code points. -/
def keep (codes : List Nat) : List Char := codes.flatMap keepCode

/-- The code point that a character keeps when no sign stands before it. -/
def codeOf (c : Char) : Nat :=
  if isAmbiguous c.toNat && c != sign then c.toNat - halfOffset else c.toNat

/-- The code points that characters keep. -/
def codesOf : List Char → List Nat
  | [] => []
  | [c] => [codeOf c]
  | c :: d :: rest =>
    if c == sign then d.toNat :: codesOf rest else codeOf c :: codesOf (d :: rest)

/-- The string that keeps code points. -/
def ofCodes (codes : List Nat) : String := String.ofList (keep codes)

/-- The code points that a string keeps. -/
def codes (text : String) : List Nat := codesOf text.toList

/-- The number of code points of a text. -/
def width (text : String) : Nat := (codes text).length

/-- A text as a plain string, with the replacement character for halves. -/
def plain (text : String) : String :=
  String.ofList ((codes text).map fun n => if isHalf n then '\uFFFD' else Char.ofNat n)

/-- A plain string as a text. -/
def ofPlain (s : String) : String := ofCodes (s.toList.map Char.toNat)

/-! ## Units of sixteen bits -/

/-- The code points of a list of units. Two units that form a pair are one code point. A number
beyond sixteen bits stands for itself. -/
def joinUnits : List Nat → List Nat
  | [] => []
  | [u] => [u]
  | u :: v :: rest =>
    if isHighHalf u && isLowHalf v then
      (0x10000 + (u - 0xD800) * 0x400 + (v - 0xDC00)) :: joinUnits rest
    else u :: joinUnits (v :: rest)

/-- The units of a code point: one, or a pair. -/
def unitsOf (code : Nat) : List Nat :=
  if code < 0x10000 then [code]
  else [0xD800 + (code - 0x10000) / 0x400, 0xDC00 + (code - 0x10000) % 0x400]

/-! ## What a string keeps -/

/-- The numbers that characters can have, and the halves. -/
def isCode (code : Nat) : Bool := code < 0x110000

/-- A character with a number of its own has that number. -/
theorem toNat_ofNat_of_isCode {n : Nat} (h : isCode n) (hs : isHalf n = false) :
    (Char.ofNat n).toNat = n := by
  have hv : n.isValidChar := by
    simp only [isCode, isHalf, decide_eq_true_eq, Bool.and_eq_false_iff,
      decide_eq_false_iff_not] at h hs
    simp only [Nat.isValidChar]
    omega
  rw [Char.ofNat, dif_pos hv]
  rfl

/-- A character that is not the sign is read by itself. -/
theorem codesOf_cons {c : Char} (h : c ≠ sign) (rest : List Char) :
    codesOf (c :: rest) = codeOf c :: codesOf rest := by
  cases rest <;> simp [codesOf, h]

/-- A character with another number is not the sign. -/
theorem ne_sign {c : Char} (h : c.toNat ≠ signCode) : c ≠ sign := fun hc =>
  h (hc ▸ toNat_ofNat_of_isCode (by decide) (by decide))

/-- What keeps a code point gives it back, whatever comes after. -/
theorem codesOf_keepCode_append {n : Nat} (h : isCode n) (rest : List Char) :
    codesOf (keepCode n ++ rest) = n :: codesOf rest := by
  unfold keepCode
  split
  · rename_i hh
    have hr : 0xD800 ≤ n ∧ n < 0xE000 := by simpa [isHalf] using hh
    have ho : halfOffset = 0x100000 := rfl
    have hs : signCode = 0x10D7FF := rfl
    have hn : (Char.ofNat (halfOffset + n)).toNat = halfOffset + n :=
      toNat_ofNat_of_isCode (decide_eq_true (by omega)) (by
        simp only [isHalf, Bool.and_eq_false_iff, decide_eq_false_iff_not]
        omega)
    have hc : Char.ofNat (halfOffset + n) ≠ sign := ne_sign (by omega)
    have ha : isAmbiguous (halfOffset + n) = true := by
      simp only [isAmbiguous, Bool.and_eq_true, decide_eq_true_eq]
      omega
    rw [List.singleton_append, codesOf_cons hc, codeOf, hn, ha]
    simp [hc]
  · rename_i hh
    have hn : (Char.ofNat n).toNat = n := toNat_ofNat_of_isCode h (by simpa using hh)
    split
    · simp [codesOf, hn]
    · rename_i ha
      have hc : Char.ofNat n ≠ sign := ne_sign fun he => ha (by rw [← hn, he]; decide)
      rw [List.singleton_append, codesOf_cons hc, codeOf, hn]
      simp [ha]

/-- Nothing is lost in the characters that keep code points. -/
theorem codesOf_keep {ns : List Nat} (h : ∀ n ∈ ns, isCode n) : codesOf (keep ns) = ns := by
  induction ns with
  | nil => rfl
  | cons n rest ih =>
    rw [keep, List.flatMap_cons, codesOf_keepCode_append (h n List.mem_cons_self)]
    exact congrArg (n :: ·) (ih fun m hm => h m (List.mem_cons_of_mem n hm))

end TableauSimplex.Text
