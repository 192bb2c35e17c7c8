import DockerfileLint.Json.Writer
import DockerfileLint.Proofs.Json.Numbers
import DockerfileLint.Proofs.Json.Texts

/-!
# The words of a JSON text

A token has one form or several (`Token.Form`). What the reader takes for a token is one of its
forms (`Token.form_of_next?`), and in any of its forms a token is read, whatever follows
(`Token.lex_of_form`); a number needs something after it that does not continue it. So the
characters that are read as a list of tokens are the tokens with blanks between them
(`written_of_lex`), and the converse holds if punctuation follows every number (`lex_of_written`).

The writer gives every token one of its forms (`Token.form_spell`), but for a number that was read
with a point or an exponent. What it makes of tokens is on one line (`written_flatMap_spell`) or on
several (`written_layout`).
-/

namespace DockerfileLint.Json

/-! ### Tokens -/

namespace Token

/-- Whether a token is a number that is kept by its spelling. -/
def isDecimal : Token → Bool
  | decimal _ => true
  | _ => false

/-- Whether a token is a number. -/
def isNumber : Token → Bool
  | integer _ | decimal _ => true
  | _ => false

theorem isNumber_numberToken (negative : Bool) (whole frac power : List Char) :
    (numberToken negative whole frac power).isNumber = true := by
  unfold numberToken
  split <;> rfl

/-- Whether a token is a bracket, a comma or a colon. -/
def isPunctuation : Token → Bool
  | openArray | closeArray | openObject | closeObject | comma | colon => true
  | _ => false

/-- The ways to write a token. -/
inductive Form : Token → List Char → Prop
  | fixed {t : Token}
      (h : t ∈ [openArray, closeArray, openObject, closeObject, comma, colon, null, bool true,
        bool false]) :
      Form t t.spell
  | number (negative : Bool) {whole frac power : List Char} (hwhole : IsWhole whole)
      (hfrac : IsFraction frac) (hpower : IsExponent power) :
      Form (numberToken negative whole frac power)
        ((if negative then ['-'] else []) ++ (whole ++ (frac ++ power)))
  | quoted {s : String} {word : List Char} (h : Quoted s word) : Form (text (some s)) word
  | broken {word : List Char} (h : LooksQuoted word) (hnone : ∀ s, ¬Quoted s word) :
      Form (text none) word

theorem form_text {ps : List Piece} {parts : List (List Char)}
    (h : List.Forall₂ PieceSpelling ps parts) :
    Form (text ((join ps).map String.ofList)) ('"' :: (parts.flatten ++ ['"'])) := by
  cases hjoin : join ps with
  | none =>
    refine .broken ⟨ps, parts, h, rfl⟩ fun s hs => ?_
    rw [(quoted_iff_join h).1 hs] at hjoin
    cases hjoin
  | some cs => exact .quoted ((quoted_iff_join h).2 (by rw [hjoin, String.toList_ofList]))

theorem form_of_punctuation? {c : Char} {t : Token} (h : punctuation? c = some t) : Form t [c] := by
  unfold punctuation? at h
  split_ifs at h <;> cases h <;> subst_vars <;> exact .fixed (by simp)

theorem form_of_literal? {c : Char} {t : Token} {ending : List Char}
    (h : literal? c = some (t, ending)) :
    Form t (c :: ending) := by
  unfold literal? at h
  split_ifs at h <;> cases h <;> subst_vars <;> exact .fixed (by simp)

theorem eq_append_of_dropStart? {start cs rest : List Char} (h : dropStart? start cs = some rest) :
    cs = start ++ rest := by
  unfold dropStart? at h
  split at h
  · rename_i hstart
    obtain ⟨tail, rfl⟩ := List.isPrefixOf_iff_prefix.1 hstart
    cases h
    rw [List.drop_left]
  · cases h

/-- A token that is read has been written. -/
theorem form_of_next? {c : Char} {cs rest : List Char} {t : Token}
    (h : next? c cs = some (t, rest)) :
    ∃ word, c :: cs = word ++ rest ∧ Form t word := by
  unfold next? at h
  split at h
  · rename_i hmark
    cases h
    exact ⟨[c], rfl, form_of_punctuation? hmark⟩
  · split at h
    · rename_i t' ending hliteral
      obtain ⟨rest', hdrop, heq⟩ := Option.map_eq_some_iff.1 h
      cases heq
      obtain rfl : cs = ending ++ rest := eq_append_of_dropStart? hdrop
      exact ⟨c :: ending, rfl, form_of_literal? hliteral⟩
    · split_ifs at h with hquote hminus hdigit
      · subst hquote
        obtain ⟨⟨ps, rest'⟩, hpieces, heq⟩ := Option.map_eq_some_iff.1 h
        cases heq
        obtain ⟨parts, hparts, rfl⟩ := pieces_eq_some_iff.1 hpieces
        exact ⟨_, by simp, form_text hparts⟩
      · subst hminus
        obtain ⟨whole, frac, power, hwhole, hfrac, hpower, rfl, rfl⟩ := exists_of_number h
        exact ⟨_, by simp, .number true hwhole hfrac hpower⟩
      · obtain ⟨whole, frac, power, hwhole, hfrac, hpower, hcs, rfl⟩ := exists_of_number h
        exact ⟨_, by rw [hcs]; simp, .number false hwhole hfrac hpower⟩

theorem lex_cons {c : Char} {cs rest : List Char} {t : Token} (hspace : isSpace c = false)
    (hnext : next? c cs = some (t, rest)) : lex (c :: cs) = (lex rest).map (t :: ·) := by
  rw [lex, if_neg (by simp [hspace])]
  split
  · rename_i hnone
    rw [hnext] at hnone
    cases hnone
  · rename_i hsome
    rw [hnext] at hsome
    cases hsome
    rfl

theorem next?_quote (cs : List Char) :
    next? '"' cs = (pieces cs).map fun r => (text ((join r.1).map String.ofList), r.2) := rfl

theorem lex_quoted {s : String} {word : List Char} (h : Quoted s word) (rest : List Char) :
    lex (word ++ rest) = (lex rest).map (text (some s) :: ·) := by
  obtain ⟨parts, hparts, rfl⟩ := h
  obtain ⟨ps, hpieces, hjoin⟩ := exists_pieces_of_parts hparts rest
  rw [List.cons_append, List.append_assoc]
  refine lex_cons rfl ?_
  rw [List.singleton_append, next?_quote, hpieces, Option.map_some, hjoin, Option.map_some,
    String.ofList_toList]

theorem ne_of_isDigit {c d : Char} (hc : c.isDigit = true) (hd : d.isDigit = false) : c ≠ d := by
  rintro rfl
  rw [hc] at hd
  cases hd

theorem next?_of_isDigit {c : Char} (hc : c.isDigit = true) (cs : List Char) :
    next? c cs = number false (c :: cs) := by
  have hne : ∀ d : Char, d.isDigit = false → c ≠ d := fun d => ne_of_isDigit hc
  have hpunctuation : punctuation? c = none := by
    simp [punctuation?, hne '[' rfl, hne ']' rfl, hne '\x7b' rfl, hne '\x7d' rfl, hne ',' rfl,
      hne ':' rfl]
  have hliteral : literal? c = none := by
    simp [literal?, hne 'n' rfl, hne 't' rfl, hne 'f' rfl]
  rw [next?, hpunctuation, hliteral]
  simp [hne '"' rfl, hne '-' rfl, hc]

theorem isSpace_of_isDigit {c : Char} (hc : c.isDigit = true) : isSpace c = false := by
  have hne : ∀ d : Char, d.isDigit = false → (c == d) = false :=
    fun d hd => beq_false_of_ne (ne_of_isDigit hc hd)
  rw [isSpace, hne ' ' rfl, hne '\t' rfl, hne '\n' rfl, hne '\r' rfl]
  rfl

/-- A token that has been written is read, whatever follows; a number needs something that does not
continue it. -/
theorem lex_of_form {t : Token} {word : List Char} (h : Form t word) {rest : List Char}
    (hrest : t.isNumber = true → Stops rest) : lex (word ++ rest) = (lex rest).map (t :: ·) := by
  cases h with
  | fixed h =>
    simp only [List.mem_cons, List.not_mem_nil, or_false] at h
    rcases h with rfl | rfl | rfl | rfl | rfl | rfl | rfl | rfl | rfl <;> exact lex_cons rfl rfl
  | @number negative whole frac power hwhole hfrac hpower =>
    have hnumber := number_append hwhole hfrac hpower (hrest (isNumber_numberToken ..)) negative
    rw [List.append_assoc, List.append_assoc, List.append_assoc]
    cases negative with
    | true => exact lex_cons rfl hnumber
    | false =>
      obtain ⟨c, cs, hcs⟩ := List.exists_cons_of_ne_nil hwhole.ne_nil
      have hc : c.isDigit = true := hwhole.isDigit c (by simp [hcs])
      rw [hcs] at hnumber ⊢
      exact lex_cons (isSpace_of_isDigit hc) ((next?_of_isDigit hc _).trans hnumber)
  | quoted h => exact lex_quoted h rest
  | broken h hnone =>
    obtain ⟨ps, parts, hparts, rfl⟩ := h
    have hjoin : join ps = none := by
      refine Option.eq_none_iff_forall_ne_some.2 fun cs hcs => hnone (String.ofList cs) ?_
      rw [quoted_iff_join hparts, String.toList_ofList, hcs]
    have hpieces : pieces (parts.flatten ++ '"' :: rest) = some (ps, rest) :=
      pieces_eq_some_iff.2 ⟨parts, hparts, rfl⟩
    rw [List.cons_append, List.append_assoc]
    refine lex_cons rfl ?_
    rw [List.singleton_append, next?_quote, hpieces, Option.map_some, hjoin]
    rfl

end Token

/-! ### Lists of tokens -/

/-- The characters are the tokens, each in one of its forms, with nothing but blanks before, between
and after them. -/
inductive Written : List Token → List Char → Prop
  | nil {blanks : List Char} (hblanks : ∀ c ∈ blanks, Token.isSpace c = true) : Written [] blanks
  | cons {blanks word cs : List Char} {t : Token} {ts : List Token}
      (hblanks : ∀ c ∈ blanks, Token.isSpace c = true) (hword : t.Form word)
      (hrest : Written ts cs) : Written (t :: ts) (blanks ++ (word ++ cs))

theorem Written.blanks_append {blanks : List Char} (hblanks : ∀ c ∈ blanks, Token.isSpace c = true)
    {ts : List Token} {cs : List Char} (h : Written ts cs) : Written ts (blanks ++ cs) := by
  cases h with
  | nil hmore => exact .nil (List.forall_mem_append.2 ⟨hblanks, hmore⟩)
  | cons hmore hword hrest =>
    rw [← List.append_assoc]
    exact .cons (List.forall_mem_append.2 ⟨hblanks, hmore⟩) hword hrest

theorem Token.lex_blanks_append {blanks : List Char} (hblanks : ∀ c ∈ blanks, isSpace c = true)
    (cs : List Char) :
    lex (blanks ++ cs) = lex cs := by
  induction blanks with
  | nil => rfl
  | cons c blanks ih =>
    rw [List.cons_append, lex, if_pos (hblanks c (by simp)),
      ih fun d hd => hblanks d (by simp [hd])]

theorem written_of_lex {cs : List Char} {ts : List Token} (h : Token.lex cs = some ts) :
    Written ts cs := by
  fun_induction Token.lex cs generalizing ts with
  | case1 =>
    cases h
    exact .nil (by simp)
  | case2 c cs hspace ih =>
    exact @Written.blanks_append [c] (List.forall_mem_singleton.2 hspace) _ _ (ih h)
  | case3 => cases h
  | case4 c cs hspace t rest hnext ih =>
    obtain ⟨ts, hts, rfl⟩ := Option.map_eq_some_iff.1 h
    obtain ⟨word, hword, hform⟩ := Token.form_of_next? hnext
    rw [hword]
    exact @Written.cons [] word rest t ts (by simp) hform (ih hts)

/-- Punctuation follows every number. -/
def Apart : List Token → Prop
  | [] => True
  | t :: ts => (t.isNumber = true → ∀ u ∈ ts.head?, u.isPunctuation = true) ∧ Apart ts

theorem exists_next?_of_lex {c : Char} (hspace : ¬Token.isSpace c = true) {cs : List Char}
    {ts : List Token} (h : Token.lex (c :: cs) = some ts) :
    ∃ t rest, Token.next? c cs = some (t, rest) ∧ ts.head? = some t := by
  rw [Token.lex, if_neg hspace] at h
  split at h
  · cases h
  · rename_i t rest hnext
    obtain ⟨ts, -, rfl⟩ := Option.map_eq_some_iff.1 h
    exact ⟨t, rest, hnext, rfl⟩

theorem stops_of_isSpace {c : Char} (h : Token.isSpace c = true) (rest : List Char) :
    Stops (c :: rest) := by
  intro d hd
  cases hd
  simp only [Token.isSpace, Bool.or_eq_true, beq_iff_eq] at h
  rcases h with ((rfl | rfl) | rfl) | rfl <;> decide

/-- Neither a blank nor punctuation continues a number. -/
theorem stops_of_lex {cs : List Char} {ts : List Token} (h : Token.lex cs = some ts)
    (hfollow : ∀ u ∈ ts.head?, u.isPunctuation = true) : Stops cs := by
  cases cs with
  | nil => exact stops_nil
  | cons c cs =>
    by_cases hspace : Token.isSpace c = true
    · exact stops_of_isSpace hspace cs
    · obtain ⟨t, rest, hnext, hhead⟩ := exists_next?_of_lex hspace h
      have hmark := hfollow t hhead
      -- a digit would start a number, and no token starts with a point or an `e`
      intro d hd
      cases hd
      refine ⟨?_, ?_, ?_, ?_⟩
      · by_contra hdigit
        rw [Token.next?_of_isDigit (by simpa using hdigit)] at hnext
        obtain ⟨whole, frac, power, -, -, -, -, rfl⟩ := exists_of_number hnext
        unfold numberToken at hmark
        split at hmark <;> cases hmark
      · rintro rfl
        cases hnext
      · rintro rfl
        cases hnext
      · rintro rfl
        cases hnext

theorem lex_of_written {ts : List Token} {cs : List Char} (h : Written ts cs) (hts : Apart ts) :
    Token.lex cs = some ts := by
  induction h with
  | @nil blanks hblanks =>
    have hlex := Token.lex_blanks_append hblanks []
    rwa [List.append_nil, Token.lex] at hlex
  | @cons blanks word cs t ts hblanks hword _ ih =>
    have hrest := ih hts.2
    rw [Token.lex_blanks_append hblanks,
      Token.lex_of_form hword fun ht => stops_of_lex hrest (hts.1 ht), hrest, Option.map_some]

/-! ### What the writer makes of tokens -/

namespace Token

theorem form_ofInt (n : Int) : Form (integer n) (Decimal.ofInt n) := by
  cases n with
  | ofNat n =>
    have h := Form.number false (isWhole_digits n) .missing .missing
    rwa [numberToken_digits false n (by simp), List.append_nil, List.append_nil] at h
  | negSucc n =>
    have h := Form.number true (isWhole_digits (n + 1)) .missing .missing
    rwa [numberToken_digits true (n + 1) (by simp), List.append_nil, List.append_nil] at h

theorem form_surrogate : Form (text none) (text none).spell := by
  have hpiece : PieceSpelling (.unit 0xD800) "\\ud800".toList := .unit (by decide)
  exact form_text (.cons hpiece .nil)

/-- The writer gives a token one of its forms. -/
theorem form_spell {t : Token} (h : t.isDecimal = false) : Form t t.spell := by
  cases t with
  | openArray | closeArray | openObject | closeObject | comma | colon | null =>
    exact .fixed (by simp)
  | bool b => exact .fixed (by cases b <;> simp)
  | integer n => exact form_ofInt n
  | decimal spelling => cases h
  | text content =>
    cases content with
    | none => exact form_surrogate
    | some s => exact .quoted (quoted_escape s)

end Token

theorem Written.spell_append {t : Token} (ht : t.isDecimal = false) {ts : List Token}
    {cs : List Char} (h : Written ts cs) : Written (t :: ts) (t.spell ++ cs) :=
  @Written.cons [] t.spell cs t ts (by simp) (Token.form_spell ht) h

theorem written_flatMap_spell {ts : List Token} (h : ∀ t ∈ ts, t.isDecimal = false) :
    Written ts (ts.flatMap Token.spell) := by
  induction ts with
  | nil => exact .nil (by simp)
  | cons t ts ih =>
    obtain ⟨ht, hts⟩ := List.forall_mem_cons.1 h
    exact (ih hts).spell_append ht

theorem isSpace_of_mem_newline (depth : Nat) : ∀ c ∈ newline depth, Token.isSpace c = true := by
  intro c hc
  rcases List.mem_cons.1 hc with rfl | hc
  · rfl
  · rw [List.eq_of_mem_replicate hc]
    rfl

/-- A layout puts nothing but blanks between the tokens. -/
theorem written_layout (depth : Nat) {ts : List Token} (h : ∀ t ∈ ts, t.isDecimal = false) :
    Written ts (layout depth ts) := by
  have hnewline := isSpace_of_mem_newline
  have hspace : ∀ c ∈ [' '], Token.isSpace c = true := List.forall_mem_singleton.2 rfl
  fun_induction layout depth ts with
  | case1 => exact .nil (by simp)
  | case2 d ts ih => exact ((ih fun t ht => h t (by simp [ht])).spell_append rfl).spell_append rfl
  | case3 d ts ih => exact ((ih fun t ht => h t (by simp [ht])).spell_append rfl).spell_append rfl
  | case4 d ts _ ih =>
    exact ((ih (List.forall_mem_cons.1 h).2).blanks_append (hnewline _)).spell_append rfl
  | case5 d ts _ ih =>
    exact ((ih (List.forall_mem_cons.1 h).2).blanks_append (hnewline _)).spell_append rfl
  | case6 d ts ih =>
    exact .cons (hnewline _) (Token.form_spell rfl) (ih (List.forall_mem_cons.1 h).2)
  | case7 d ts ih =>
    exact .cons (hnewline _) (Token.form_spell rfl) (ih (List.forall_mem_cons.1 h).2)
  | case8 d ts ih =>
    exact ((ih (List.forall_mem_cons.1 h).2).blanks_append (hnewline _)).spell_append rfl
  | case9 d ts ih => exact ((ih (List.forall_mem_cons.1 h).2).blanks_append hspace).spell_append rfl
  | case10 d t ts _ _ _ _ _ _ _ _ ih =>
    obtain ⟨ht, hts⟩ := List.forall_mem_cons.1 h
    exact (ih hts).spell_append ht

end DockerfileLint.Json
