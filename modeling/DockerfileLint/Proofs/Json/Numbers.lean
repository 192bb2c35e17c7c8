import DockerfileLint.Json.Token
import Mathlib.Data.List.TakeWhile

/-!
# The numbers of a JSON text

A number has a whole part without leading zeros, and may have a fraction and an exponent. The reader
takes the longest number: whatever it takes is one (`exists_of_number`), and a number is taken whole
if what follows does not continue it (`number_append`). The numerals of the program are such numbers
(`isWhole_digits`).
-/

namespace DockerfileLint.Json

/-! ### The parts of a number -/

/-- One digit or more. -/
def IsDigits (ds : List Char) : Prop := ds ≠ [] ∧ ∀ c ∈ ds, c.isDigit = true

/-- A whole part: zero, or digits that do not start with a zero. -/
inductive IsWhole : List Char → Prop
  | zero : IsWhole ['0']
  | digits {ds : List Char} (h : IsDigits ds) (hzero : ds.head? ≠ some '0') : IsWhole ds

/-- A fraction, or nothing. -/
inductive IsFraction : List Char → Prop
  | missing : IsFraction []
  | digits {ds : List Char} (h : IsDigits ds) : IsFraction ('.' :: ds)

/-- An exponent, or nothing. -/
inductive IsExponent : List Char → Prop
  | missing : IsExponent []
  | digits {mark : Char} {sign ds : List Char} (hmark : mark = 'e' ∨ mark = 'E')
      (hsign : sign ∈ [[], ['+'], ['-']]) (h : IsDigits ds) : IsExponent (mark :: (sign ++ ds))

/-- What follows does not continue a number. -/
def Stops (rest : List Char) : Prop :=
  ∀ c ∈ rest.head?, c.isDigit = false ∧ c ≠ '.' ∧ c ≠ 'e' ∧ c ≠ 'E'

theorem stops_nil : Stops [] := by
  intro c hc
  cases hc

theorem IsWhole.ne_nil {whole : List Char} (h : IsWhole whole) : whole ≠ [] := by
  cases h with
  | zero => simp
  | digits h => exact h.1

theorem IsWhole.isDigit {whole : List Char} (h : IsWhole whole) :
    ∀ c ∈ whole, c.isDigit = true := by
  cases h with
  | zero => simp
  | digits h => exact h.2

/-! ### What the reader takes -/

theorem append_spanDigits (cs : List Char) : (spanDigits cs).1 ++ (spanDigits cs).2 = cs :=
  List.takeWhile_append_dropWhile

theorem isDigits_spanDigits {cs : List Char} (h : (spanDigits cs).1 ≠ []) :
    IsDigits (spanDigits cs).1 :=
  ⟨h, fun _ hc => List.mem_takeWhile_imp hc⟩

theorem append_wholePart (cs : List Char) : (wholePart cs).1 ++ (wholePart cs).2 = cs := by
  unfold wholePart
  split
  · rfl
  · exact append_spanDigits cs

theorem isWhole_wholePart {cs : List Char} (h : (wholePart cs).1 ≠ []) :
    IsWhole (wholePart cs).1 := by
  unfold wholePart at h ⊢
  split
  · exact .zero
  · rename_i hzero
    split at h
    · exact absurd rfl (hzero _)
    · refine .digits (isDigits_spanDigits h) fun hhead => ?_
      obtain ⟨tail, htail⟩ := List.head?_eq_some_iff.1 hhead
      exact hzero (tail ++ (spanDigits cs).2)
        ((append_spanDigits cs).symm.trans (by rw [htail, List.cons_append]))

theorem append_fraction (cs : List Char) : (fraction cs).1 ++ (fraction cs).2 = cs := by
  unfold fraction
  split
  · split
    · rfl
    · rw [List.cons_append, append_spanDigits]
  · rfl

theorem isFraction_fraction (cs : List Char) : IsFraction (fraction cs).1 := by
  unfold fraction
  split
  · split
    · exact .missing
    · rename_i hempty
      exact .digits (isDigits_spanDigits (by simpa using hempty))
  · exact .missing

theorem append_exponentSign (cs : List Char) : (exponentSign cs).1 ++ (exponentSign cs).2 = cs := by
  unfold exponentSign
  split <;> rfl

theorem exponentSign_mem (cs : List Char) : (exponentSign cs).1 ∈ [[], ['+'], ['-']] := by
  unfold exponentSign
  split <;> simp

theorem append_exponentAfter {mark : Char} {rest cs : List Char} (h : cs = mark :: rest) :
    (exponentAfter mark rest cs).1 ++ (exponentAfter mark rest cs).2 = cs := by
  simp only [exponentAfter]
  split
  · rfl
  · show mark :: ((exponentSign rest).1 ++ _ ++ _) = cs
    rw [List.append_assoc, append_spanDigits, append_exponentSign, h]

theorem append_exponent (cs : List Char) : (exponent cs).1 ++ (exponent cs).2 = cs := by
  unfold exponent
  split
  · exact append_exponentAfter rfl
  · exact append_exponentAfter rfl
  · rfl

theorem isExponent_exponentAfter {mark : Char} (hmark : mark = 'e' ∨ mark = 'E')
    (rest cs : List Char) :
    IsExponent (exponentAfter mark rest cs).1 := by
  simp only [exponentAfter]
  split
  · exact .missing
  · rename_i hempty
    exact .digits hmark (exponentSign_mem rest) (isDigits_spanDigits (by simpa using hempty))

theorem isExponent_exponent (cs : List Char) : IsExponent (exponent cs).1 := by
  unfold exponent
  split
  · exact isExponent_exponentAfter (.inl rfl) ..
  · exact isExponent_exponentAfter (.inr rfl) ..
  · exact .missing

/-! ### Numbers that are taken whole -/

theorem spanDigits_append {ds rest : List Char} (hds : ∀ c ∈ ds, c.isDigit = true)
    (hrest : ∀ c ∈ rest.head?, c.isDigit = false) : spanDigits (ds ++ rest) = (ds, rest) := by
  have htake : rest.takeWhile Char.isDigit = [] := by
    cases rest with
    | nil => rfl
    | cons c rest => exact List.takeWhile_cons_of_neg (by simp [hrest c rfl])
  have hdrop : rest.dropWhile Char.isDigit = rest := by
    cases rest with
    | nil => rfl
    | cons c rest => exact List.dropWhile_cons_of_neg (by simp [hrest c rfl])
  rw [spanDigits, List.takeWhile_append_of_pos hds, List.dropWhile_append_of_pos hds, htake, hdrop,
    List.append_nil]

theorem wholePart_append {whole rest : List Char} (h : IsWhole whole)
    (hrest : ∀ c ∈ rest.head?, c.isDigit = false) :
    wholePart (whole ++ rest) = (whole, rest) := by
  cases h with
  | zero => rfl
  | digits h hzero =>
    unfold wholePart
    split
    · -- a leading zero would be the whole part by itself, but there is none
      rename_i tail heq
      obtain ⟨c, cs, rfl⟩ := List.exists_cons_of_ne_nil h.1
      exact absurd (congrArg some (List.cons.inj heq).1) hzero
    · exact spanDigits_append h.2 hrest

theorem fraction_append {frac rest : List Char} (h : IsFraction frac)
    (hrest : ∀ c ∈ rest.head?, c.isDigit = false ∧ c ≠ '.') :
    fraction (frac ++ rest) = (frac, rest) := by
  cases h with
  | missing =>
    rw [List.nil_append]
    unfold fraction
    split
    · exact absurd rfl (hrest '.' rfl).2
    · rfl
  | @digits ds h =>
    have hspan := spanDigits_append h.2 fun c hc => (hrest c hc).1
    rw [List.cons_append, fraction, hspan, if_neg (by simpa using h.1)]

theorem exponentSign_append {sign ds : List Char} (hsign : sign ∈ [[], ['+'], ['-']])
    (hds : IsDigits ds) (rest : List Char) :
    exponentSign (sign ++ (ds ++ rest)) = (sign, ds ++ rest) := by
  obtain ⟨c, ds, rfl⟩ := List.exists_cons_of_ne_nil hds.1
  have hc : c.isDigit = true := hds.2 c (by simp)
  simp only [List.mem_cons, List.not_mem_nil, or_false] at hsign
  rcases hsign with rfl | rfl | rfl
  · rw [List.nil_append, List.cons_append]
    unfold exponentSign
    split
    · rename_i heq
      rw [(List.cons.inj heq).1] at hc
      cases hc
    · rename_i heq
      rw [(List.cons.inj heq).1] at hc
      cases hc
    · rfl
  · rfl
  · rfl

theorem exponent_append {power rest : List Char} (h : IsExponent power) (hrest : Stops rest) :
    exponent (power ++ rest) = (power, rest) := by
  cases h with
  | missing =>
    rw [List.nil_append]
    unfold exponent
    split
    · exact absurd rfl (hrest _ rfl).2.2.1
    · exact absurd rfl (hrest _ rfl).2.2.2
    · rfl
  | @digits mark sign ds hmark hsign h =>
    have hafter : ∀ cs, exponentAfter mark (sign ++ (ds ++ rest)) cs = (mark :: (sign ++ ds),
        rest) := by
      intro cs
      have hspan := spanDigits_append h.2 fun c hc => (hrest c hc).1
      rw [exponentAfter]
      simp only [exponentSign_append hsign h, hspan]
      exact if_neg (by simpa using h.1)
    rw [List.cons_append, List.append_assoc]
    rcases hmark with rfl | rfl
    · exact hafter _
    · exact hafter _

/-! ### Numbers -/

/-- The token of a number with the given parts. It is an integer unless there is a fraction or an
exponent, or it is minus zero. -/
def numberToken (negative : Bool) (whole frac power : List Char) : Token :=
  if frac = [] ∧ power = [] ∧ ¬(negative = true ∧ whole = ['0']) then
    .integer (if negative then -Decimal.value whole else Decimal.value whole)
  else .decimal ((if negative then ['-'] else []) ++ whole ++ frac ++ power)

theorem number_eq (negative : Bool) (cs : List Char) :
    number negative cs =
      if (wholePart cs).1 = [] then none
      else some (numberToken negative (wholePart cs).1 (fraction (wholePart cs).2).1
        (exponent (fraction (wholePart cs).2).2).1,
        (exponent (fraction (wholePart cs).2).2).2) := by
  unfold number numberToken
  simp only [List.isEmpty_iff, Bool.and_eq_true, Bool.not_eq_true', Bool.and_eq_false_iff,
    beq_eq_false_iff_ne, not_and_or, Bool.not_eq_true, and_assoc, ne_eq]
  split_ifs <;> rfl

/-- Whatever is read as a number is one. -/
theorem exists_of_number {negative : Bool} {cs rest : List Char} {t : Token}
    (h : number negative cs = some (t, rest)) :
    ∃ whole frac power, IsWhole whole ∧ IsFraction frac ∧ IsExponent power ∧
      cs = whole ++ (frac ++ (power ++ rest)) ∧ t = numberToken negative whole frac power := by
  rw [number_eq] at h
  split at h
  · cases h
  · rename_i hwhole
    cases h
    refine ⟨_, _, _, isWhole_wholePart hwhole, isFraction_fraction _, isExponent_exponent _,
      ?_, rfl⟩
    rw [append_exponent, append_fraction, append_wholePart]

/-- A number is read whole if what follows does not continue it. -/
theorem number_append {whole frac power rest : List Char} (hwhole : IsWhole whole)
    (hfrac : IsFraction frac) (hpower : IsExponent power) (hrest : Stops rest) (negative : Bool) :
    number negative (whole ++ (frac ++ (power ++ rest))) =
      some (numberToken negative whole frac power, rest) := by
  have hpowerHead : ∀ c ∈ (power ++ rest).head?, c.isDigit = false ∧ c ≠ '.' := by
    cases hpower with
    | missing => exact fun c hc => ⟨(hrest c hc).1, (hrest c hc).2.1⟩
    | digits hmark =>
      rintro c hc
      cases hc
      rcases hmark with rfl | rfl <;> decide
  have hfracHead : ∀ c ∈ (frac ++ (power ++ rest)).head?, c.isDigit = false := by
    cases hfrac with
    | missing => exact fun c hc => (hpowerHead c hc).1
    | digits =>
      rintro c hc
      cases hc
      rfl
  rw [number_eq]
  simp only [wholePart_append hwhole hfracHead, fraction_append hfrac hpowerHead,
    exponent_append hpower hrest, hwhole.ne_nil, if_false]

/-! ### Numerals -/

/-- Only the numeral of zero starts with a zero. -/
theorem head?_digits_ne_zero {n : Nat} (hn : 0 < n) : (Decimal.digits n).head? ≠ some '0' := by
  fun_induction Decimal.digits n with
  | case1 n h =>
    have : ∀ d < 10, 0 < d → [Decimal.digit d].head? ≠ some '0' := by decide
    exact this n h hn
  | case2 n h ih =>
    obtain ⟨c, cs, hcs⟩ := List.exists_cons_of_ne_nil (Decimal.digits_ne_nil (n / 10))
    have hhead := ih (by omega)
    rw [hcs] at hhead ⊢
    exact hhead

theorem isWhole_digits (n : Nat) : IsWhole (Decimal.digits n) := by
  rcases Nat.eq_zero_or_pos n with rfl | hn
  · have hzero : Decimal.digits 0 = ['0'] := by rw [Decimal.digits]; rfl
    rw [hzero]
    exact .zero
  · exact .digits ⟨Decimal.digits_ne_nil n, Decimal.isDigit_of_mem_digits n⟩
      (head?_digits_ne_zero hn)

/-- The numeral of a number is an integer; minus zero is not. -/
theorem numberToken_digits (negative : Bool) (n : Nat) (hn : negative = true → 0 < n) :
    numberToken negative (Decimal.digits n) [] [] = .integer (if negative then -n else n) := by
  have hzero : ¬(negative = true ∧ Decimal.digits n = ['0']) := by
    rintro ⟨hnegative, heq⟩
    exact head?_digits_ne_zero (hn hnegative) (by rw [heq]; rfl)
  rw [numberToken, if_pos ⟨rfl, rfl, hzero⟩, Decimal.value_digits]

end DockerfileLint.Json
