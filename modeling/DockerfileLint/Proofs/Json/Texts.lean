import DockerfileLint.Json.Token
import DockerfileLint.Proofs.Text
import Mathlib.Data.List.Forall2
import Mathlib.Tactic.SplitIfs

/-!
# The texts inside a JSON text

A string may be written between quotes in several ways (`Quoted`). It is read in two steps. The
first finds the closing quote and the pieces up to it, which are all that may stand there
(`pieces_eq_some_iff`). The second joins the pieces; that gives the string, if one is written there
(`quoted_iff_join`).
-/

namespace DockerfileLint.Json

/-! ### Written strings -/

/-- The characters that a letter after a backslash stands for, with that letter. -/
def escapeLetters : List (Char × Char) :=
  [('"', '"'), ('\\', '\\'), ('/', '/'), (Char.ofNat 8, 'b'), ('\t', 't'), ('\n', 'n'),
    (Char.ofNat 12, 'f'), ('\r', 'r')]

/-- The ways to write a character between quotes: as it is, unless it is a quote, a backslash or a
control character; by a letter; by its code; and by the two halves of a surrogate pair. -/
inductive CharSpelling (c : Char) : List Char → Prop
  | plain (hcontrol : 32 ≤ c.toNat) (hquote : c ≠ '"') (hback : c ≠ '\\') : CharSpelling c [c]
  | letter {e : Char} (h : (c, e) ∈ escapeLetters) : CharSpelling c ['\\', e]
  | code {w x y z : Char} (h : hexValue4? w x y z = some c.toNat) :
      CharSpelling c ['\\', 'u', w, x, y, z]
  | pair {w x y z w' x' y' z' : Char} {high low : Nat} (hhigh : hexValue4? w x y z = some high)
      (hlow : hexValue4? w' x' y' z' = some low) (hhalves : isHigh high = true ∧ isLow low = true)
      (hc : c.toNat = 0x10000 + 0x400 * (high - 0xD800) + (low - 0xDC00)) :
      CharSpelling c ['\\', 'u', w, x, y, z, '\\', 'u', w', x', y', z']

/-- The ways to write a text. -/
def Quoted (s : String) (text : List Char) : Prop :=
  ∃ parts, List.Forall₂ CharSpelling s.toList parts ∧ text = '"' :: (parts.flatten ++ ['"'])

/-! ### Pieces -/

/-- The ways to write a piece of a text. -/
inductive PieceSpelling : Piece → List Char → Prop
  | plain {c : Char} (hcontrol : 32 ≤ c.toNat) (hquote : c ≠ '"') (hback : c ≠ '\\') :
      PieceSpelling (.char c) [c]
  | letter {c e : Char} (h : (c, e) ∈ escapeLetters) : PieceSpelling (.char c) ['\\', e]
  | unit {w x y z : Char} {n : Nat} (h : hexValue4? w x y z = some n) :
      PieceSpelling (.unit n) ['\\', 'u', w, x, y, z]

theorem pieces_quote (rest : List Char) : pieces ('"' :: rest) = some ([], rest) := by
  rw [pieces.eq_def]
  exact if_pos rfl

theorem pieces_letter {e c : Char} (he : e ≠ 'u') (h : shortEscape? e = some c) (rest : List Char) :
    pieces ('\\' :: e :: rest) = (pieces rest).map (Piece.char c).push := by
  rw [pieces, if_neg (by decide), if_pos rfl, h]
  intro _ _ _ _ _ hu
  exact absurd hu he

theorem pieces_unit {w x y z : Char} {n : Nat} (h : hexValue4? w x y z = some n)
    (rest : List Char) :
    pieces ('\\' :: 'u' :: w :: x :: y :: z :: rest) = (pieces rest).map (Piece.unit n).push := by
  rw [pieces, if_neg (by decide), if_pos rfl]
  simp only [h]

theorem pieces_plain {c : Char} (hquote : c ≠ '"') (hback : c ≠ '\\') (h : 32 ≤ c.toNat)
    (rest : List Char) :
    pieces (c :: rest) = (pieces rest).map (Piece.char c).push := by
  rw [pieces.eq_def]
  simp only [if_neg hquote, if_neg hback, if_neg (show ¬c.toNat < 32 by omega)]

theorem shortEscape?_eq_some_iff {e c : Char} :
    shortEscape? e = some c ↔ (c, e) ∈ escapeLetters := by
  constructor
  · intro h
    unfold shortEscape? at h
    split_ifs at h with h1 h2 h3 h4 h5 h6
    all_goals cases h
    · rcases h1 with rfl | rfl | rfl <;> decide
    all_goals subst_vars; decide
  · have hletters : ∀ p ∈ escapeLetters, shortEscape? p.2 = some p.1 := by decide
    exact hletters _

/-- The characters are the pieces up to a quote and, after it, the rest. -/
def InPieces (cs : List Char) (r : List Piece × List Char) : Prop :=
  ∃ parts, List.Forall₂ PieceSpelling r.1 parts ∧ cs = parts.flatten ++ '"' :: r.2

theorem inPieces_push {p : Piece} {part rest : List Char} (hp : PieceSpelling p part)
    {r : List Piece × List Char} (h : InPieces rest r) : InPieces (part ++ rest) (p.push r) := by
  obtain ⟨parts, hparts, rfl⟩ := h
  refine ⟨part :: parts, .cons hp hparts, ?_⟩
  rw [List.flatten_cons, List.append_assoc]
  rfl

theorem inPieces_of_pieces {cs : List Char} {r : List Piece × List Char} (h : pieces cs = some r) :
    InPieces cs r := by
  fun_induction pieces cs generalizing r with
  | case1 => cases h
  | case2 cs =>
    cases h
    exact ⟨[], .nil, rfl⟩
  | case3 w x y z rest n hvalue _ ih =>
    obtain ⟨r, hr, rfl⟩ := Option.map_eq_some_iff.1 h
    exact inPieces_push (.unit hvalue) (ih hr)
  | case4 => cases h
  | case5 e rest _ c hescape _ ih =>
    obtain ⟨r, hr, rfl⟩ := Option.map_eq_some_iff.1 h
    exact inPieces_push (.letter (shortEscape?_eq_some_iff.1 hescape)) (ih hr)
  | case6 => cases h
  | case7 => cases h
  | case8 => cases h
  | case9 c cs hquote hback hcontrol ih =>
    obtain ⟨r, hr, rfl⟩ := Option.map_eq_some_iff.1 h
    exact inPieces_push (.plain (by omega) hquote hback) (ih hr)

theorem pieces_append {p : Piece} {part : List Char} (h : PieceSpelling p part) (rest : List Char) :
    pieces (part ++ rest) = (pieces rest).map p.push := by
  cases h with
  | plain hcontrol hquote hback => exact pieces_plain hquote hback hcontrol rest
  | letter h =>
    have hletters : ∀ p ∈ escapeLetters, p.2 ≠ 'u' := by decide
    exact pieces_letter (hletters _ h) (shortEscape?_eq_some_iff.2 h) rest
  | unit h => exact pieces_unit h rest

theorem pieces_eq_some_iff {cs : List Char} {r : List Piece × List Char} :
    pieces cs = some r ↔ InPieces cs r := by
  refine ⟨inPieces_of_pieces, ?_⟩
  obtain ⟨ps, rest⟩ := r
  rintro ⟨parts, hparts, rfl⟩
  change List.Forall₂ PieceSpelling ps parts at hparts
  induction hparts with
  | nil => exact pieces_quote rest
  | cons hpart _ ih =>
    rw [List.flatten_cons, List.append_assoc, pieces_append hpart, ih]
    rfl

/-! ### Surrogate pairs -/

/-- The code of a character is no half of a surrogate pair. -/
theorem isHigh_isLow_toNat (c : Char) : isHigh c.toNat = false ∧ isLow c.toNat = false := by
  have hvalid : c.toNat < 0xD800 ∨ 0xDFFF < c.toNat ∧ c.toNat < 0x110000 := c.valid
  simp only [isHigh, isLow, decide_eq_false_iff_not]
  omega

theorem join_unit (c : Char) (rest : List Piece) :
    join (.unit c.toNat :: rest) = (join rest).map (c :: ·) := by
  obtain ⟨hhigh, hlow⟩ := isHigh_isLow_toNat c
  rw [join.eq_def]
  simp only [hhigh, hlow, Char.ofNat_toNat, Bool.false_eq_true, if_false]

theorem join_pair {c : Char} {high low : Nat} (hhalves : isHigh high = true ∧ isLow low = true)
    (hc : c.toNat = 0x10000 + 0x400 * (high - 0xD800) + (low - 0xDC00)) (rest : List Piece) :
    join (.unit high :: .unit low :: rest) = (join rest).map (c :: ·) := by
  rw [join.eq_def]
  simp only [hhalves, if_true, ← hc, Char.ofNat_toNat]

theorem hexValue?_lt {c : Char} {n : Nat} (h : Hex.value? c = some n) : n < 16 := by
  unfold Hex.value? at h
  simp only at h
  split_ifs at h <;> cases h <;> omega

theorem hexValue4?_lt {w x y z : Char} {n : Nat} (h : hexValue4? w x y z = some n) :
    n < 0x10000 := by
  obtain ⟨a, ha, h⟩ := Option.bind_eq_some_iff.1 h
  obtain ⟨b, hb, h⟩ := Option.bind_eq_some_iff.1 h
  obtain ⟨c, hc, h⟩ := Option.bind_eq_some_iff.1 h
  obtain ⟨d, hd, h⟩ := Option.bind_eq_some_iff.1 h
  have := hexValue?_lt ha
  have := hexValue?_lt hb
  have := hexValue?_lt hc
  have := hexValue?_lt hd
  cases h
  omega

theorem charSpelling_of_char {c : Char} {part : List Char} (h : PieceSpelling (.char c) part) :
    CharSpelling c part := by
  cases h with
  | plain hcontrol hquote hback => exact .plain hcontrol hquote hback
  | letter h => exact .letter h

theorem charSpelling_of_unit {n : Nat} {part : List Char} (h : PieceSpelling (.unit n) part)
    (hhigh : isHigh n = false) (hlow : isLow n = false) : CharSpelling (Char.ofNat n) part := by
  cases h with
  | unit h =>
    have hlt := hexValue4?_lt h
    simp only [isHigh, isLow, decide_eq_false_iff_not] at hhigh hlow
    have hvalid : n < 0xD800 ∨ 0xDFFF < n ∧ n < 0x110000 := by omega
    exact .code (by rw [Text.toNat_ofNat hvalid, h])

theorem charSpelling_of_pair {high low : Nat} {part part' : List Char}
    (h : PieceSpelling (.unit high) part) (h' : PieceSpelling (.unit low) part')
    (hhigh : isHigh high = true) (hlow : isLow low = true) :
    CharSpelling (Char.ofNat (0x10000 + 0x400 * (high - 0xD800) + (low - 0xDC00)))
      (part ++ part') := by
  cases h with
  | unit h =>
    cases h' with
    | unit h' =>
      refine .pair h h' ⟨hhigh, hlow⟩ (Text.toNat_ofNat ?_)
      simp only [isHigh, isLow, decide_eq_true_iff] at hhigh hlow
      show _ < 0xD800 ∨ 0xDFFF < _ ∧ _ < 0x110000
      omega

/-- Pieces that are joined to characters spell those characters. -/
theorem exists_parts_of_join {ps : List Piece} {parts : List (List Char)} {cs : List Char}
    (h : join ps = some cs) (hparts : List.Forall₂ PieceSpelling ps parts) :
    ∃ chars, List.Forall₂ CharSpelling cs chars ∧ chars.flatten = parts.flatten := by
  fun_induction join ps generalizing parts cs with
  | case1 =>
    cases h
    cases hparts
    exact ⟨[], .nil, rfl⟩
  | case2 c ps ih =>
    obtain ⟨cs, hcs, rfl⟩ := Option.map_eq_some_iff.1 h
    rcases hparts with _ | ⟨hpart, hparts⟩
    obtain ⟨chars, hchars, heq⟩ := ih hcs hparts
    exact ⟨_ :: chars, .cons (charSpelling_of_char hpart) hchars, by rw [List.flatten_cons, heq,
      List.flatten_cons]⟩
  | case3 high hhigh low ps hlow ih =>
    obtain ⟨cs, hcs, rfl⟩ := Option.map_eq_some_iff.1 h
    rcases hparts with _ | ⟨hpart, _ | ⟨hpart', hparts⟩⟩
    obtain ⟨chars, hchars, heq⟩ := ih hcs hparts
    refine ⟨_ :: chars, .cons (charSpelling_of_pair hpart hpart' hhigh hlow) hchars, ?_⟩
    rw [List.flatten_cons, heq, List.append_assoc, List.flatten_cons, List.flatten_cons]
  | case4 => cases h
  | case5 => cases h
  | case6 => cases h
  | case7 n ps hhigh hlow ih =>
    obtain ⟨cs, hcs, rfl⟩ := Option.map_eq_some_iff.1 h
    rcases hparts with _ | ⟨hpart, hparts⟩
    obtain ⟨chars, hchars, heq⟩ := ih hcs hparts
    refine ⟨_ :: chars, .cons (charSpelling_of_unit hpart ?_ ?_) hchars, ?_⟩
    · simpa using hhigh
    · simpa using hlow
    · rw [List.flatten_cons, heq, List.flatten_cons]

/-! ### Strings -/

/-- However a character is written, it is read as pieces that are joined to it. -/
theorem CharSpelling.exists_pieces {c : Char} {part : List Char} (h : CharSpelling c part) :
    ∃ ps : List Piece, (∀ rest, pieces (part ++ rest) = (pieces rest).map fun r =>
      (ps ++ r.1, r.2)) ∧
      ∀ more, join (ps ++ more) = (join more).map (c :: ·) := by
  cases h with
  | plain hcontrol hquote hback =>
    exact ⟨[.char c], pieces_plain hquote hback hcontrol, fun more => by simp [join]⟩
  | @letter e h =>
    have hletters : ∀ p ∈ escapeLetters, p.2 ≠ 'u' ∧ shortEscape? p.2 = some p.1 := by decide
    obtain ⟨hu, hshort⟩ := hletters _ h
    exact ⟨[.char c], pieces_letter hu hshort, fun more => by simp [join]⟩
  | code h => exact ⟨[.unit c.toNat], pieces_unit h, join_unit c⟩
  | @pair w x y z w' x' y' z' high low hhigh hlow hhalves hc =>
    refine ⟨[.unit high, .unit low], fun rest => ?_, join_pair hhalves hc⟩
    rw [show ['\\', 'u', w, x, y, z, '\\', 'u', w', x', y', z'] ++ rest =
      '\\' :: 'u' :: w :: x :: y :: z :: '\\' :: 'u' :: w' :: x' :: y' :: z' :: rest from rfl,
      pieces_unit hhigh,
      pieces_unit hlow, Option.map_map]
    rfl

/-- However the characters of a text are written, they are read back. -/
theorem exists_pieces_of_parts {cs : List Char} {parts : List (List Char)}
    (h : List.Forall₂ CharSpelling cs parts) (rest : List Char) :
    ∃ ps, pieces (parts.flatten ++ '"' :: rest) = some (ps, rest) ∧ join ps = some cs := by
  induction h with
  | nil => exact ⟨[], pieces_quote rest, by rw [join]⟩
  | @cons c part cs parts hpart _ ih =>
    obtain ⟨ps, hpieces, hjoin⟩ := hpart.exists_pieces
    obtain ⟨more, hmore, hjoined⟩ := ih
    refine ⟨ps ++ more, ?_, ?_⟩
    · rw [List.flatten_cons, List.append_assoc, hpieces, hmore, Option.map_some]
    · rw [hjoin, hjoined, Option.map_some]

/-- The characters are written as a text, which may hold half of a surrogate pair. -/
def LooksQuoted (word : List Char) : Prop :=
  ∃ ps parts, List.Forall₂ PieceSpelling ps parts ∧ word = '"' :: (parts.flatten ++ ['"'])

/-- What stands between quotes is a text exactly when its pieces can be joined. -/
theorem quoted_iff_join {s : String} {ps : List Piece} {parts : List (List Char)}
    (h : List.Forall₂ PieceSpelling ps parts) :
    Quoted s ('"' :: (parts.flatten ++ ['"'])) ↔ join ps = some s.toList := by
  have hpieces : pieces (parts.flatten ++ ['"']) = some (ps, []) :=
    pieces_eq_some_iff.2 ⟨parts, h, rfl⟩
  constructor
  · rintro ⟨chars, hchars, heq⟩
    obtain ⟨ps', hpieces', hjoin⟩ := exists_pieces_of_parts hchars []
    rw [(List.cons.inj heq).2, hpieces'] at hpieces
    cases hpieces
    exact hjoin
  · intro hjoin
    obtain ⟨chars, hchars, heq⟩ := exists_parts_of_join hjoin h
    exact ⟨chars, hchars, by rw [heq]⟩

/-! ### What the writer makes of a string -/

theorem hexValue4?_digits {n : Nat} (h : n < 256) :
    hexValue4? '0' '0' (Hex.digit (n / 16)) (Hex.digit (n % 16)) = some n := by
  have hzero : Hex.value? '0' = some 0 := rfl
  rw [hexValue4?, hzero, Hex.value?_digit (by omega), Hex.value?_digit (by omega)]
  show some (4096 * 0 + 256 * 0 + 16 * (n / 16) + n % 16) = some n
  congr 1
  omega

/-- The escape of a character is a way to write it. -/
theorem charSpelling_escape (c : Char) : CharSpelling c (escape c) := by
  have hletter : ∀ n e, (Char.ofNat n, e) ∈ escapeLetters → c.toNat = n →
      CharSpelling c ['\\', e] := by
    rintro n e h rfl
    rw [Char.ofNat_toNat] at h
    exact .letter h
  unfold escape
  split_ifs with hquote hback h8 h9 h10 h12 h13 hcontrol
  · subst hquote
    exact .letter (by decide)
  · subst hback
    exact .letter (by decide)
  · exact hletter 8 'b' (by decide) h8
  · exact hletter 9 't' (by decide) h9
  · exact hletter 10 'n' (by decide) h10
  · exact hletter 12 'f' (by decide) h12
  · exact hletter 13 'r' (by decide) h13
  · exact .code (hexValue4?_digits (by omega))
  · exact .plain (by omega) hquote hback

theorem quoted_escape (s : String) : Quoted s ('"' :: (s.toList.flatMap escape ++ ['"'])) := by
  refine ⟨s.toList.map escape, ?_, by rw [List.flatMap_def]⟩
  exact List.forall₂_map_right_iff.2 (List.forall₂_same.2 fun c _ => charSpelling_escape c)

end DockerfileLint.Json
