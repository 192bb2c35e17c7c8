import DockerfileLint.Toml.Reader
import DockerfileLint.Toml.Writer
import Mathlib.Data.List.Forall2

/-!
# Spellings of a TOML document

How texts, keys, values and lines may be written is said by relations of their own, without
reference to a reader:

* between quotes each character stands for itself, or is written by a letter or by its code after a
  backslash;
* a key is bare or quoted, and dots join keys;
* blanks and ends of lines may stand around the items of an array, and a comma after the last one;
* lines that say nothing are blank or a comment.

Whatever spelling of its statements is chosen, a document is read back as these statements
(`statements_of_spelling`).
-/

namespace DockerfileLint.Toml

/-! ### Texts -/

/-- The characters that have a letter to write after a backslash. -/
def letters : List (Char × Char) :=
  [('"', '"'), ('\\', '\\'), (Char.ofNat 8, 'b'), ('\t', 't'), ('\n', 'n'), (Char.ofNat 12, 'f'),
    ('\r', 'r')]

/-- Hexadecimal digits of a number. -/
def HexSpelling (n : Nat) (ds : List Char) : Prop :=
  ∃ values, List.Forall₂ (fun v d => Hex.value? d = some v) values ds ∧
    values.foldl (fun n v => 16 * n + v) 0 = n

/-- The ways to write a character between quotes. -/
inductive CharSpelling (c : Char) : List Char → Prop
  | plain (hplain : isPlain c = true) (hquote : c ≠ '"') (hback : c ≠ '\\') : CharSpelling c [c]
  | letter {e : Char} (h : (c, e) ∈ letters) : CharSpelling c ['\\', e]
  | code4 {ds : List Char} (hlength : ds.length = 4) (h : HexSpelling c.toNat ds) :
      CharSpelling c ('\\' :: 'u' :: ds)
  | code8 {ds : List Char} (hlength : ds.length = 8) (h : HexSpelling c.toNat ds) :
      CharSpelling c ('\\' :: 'U' :: ds)

/-- The ways to write a text between quotes on one line. -/
def Quoted (s : String) (text : List Char) : Prop :=
  ∃ parts, List.Forall₂ CharSpelling s.toList parts ∧ text = '"' :: (parts.flatten ++ ['"'])

theorem charOfHex?_of_spelling {c : Char} {ds : List Char} (h : HexSpelling c.toNat ds) :
    charOfHex? ds = some c := by
  obtain ⟨values, hdigits, hvalue⟩ := h
  have hmap : ds.mapM Hex.value? = some values := by
    clear hvalue
    induction hdigits with
    | nil => rfl
    | cons hd _ ih => rw [List.mapM_cons, hd, ih]; rfl
  rw [charOfHex?, hmap]
  show (if (values.foldl _ 0).isValidChar then some (Char.ofNat (values.foldl _ 0)) else none) =
    some c
  rw [hvalue, if_pos (show c.toNat.isValidChar from c.valid), Char.ofNat_toNat]

/-- However a character is written, it is read as one character. -/
theorem basicText_of_spelling {c : Char} {part : List Char} (h : CharSpelling c part)
    (rest : List Char) :
    basicText (part ++ rest) = (basicText rest).map (push c) := by
  cases h with
  | plain hplain hquote hback =>
    rw [List.singleton_append, basicText]
    all_goals simp [hplain, hquote, hback]
  | letter h =>
    simp only [letters, List.mem_cons, Prod.mk.injEq, List.not_mem_nil, or_false] at h
    rcases h with ⟨rfl, rfl⟩ | ⟨rfl, rfl⟩ | ⟨rfl, rfl⟩ | ⟨rfl, rfl⟩ | ⟨rfl, rfl⟩ | ⟨rfl, rfl⟩
      | ⟨rfl, rfl⟩ <;> rfl
  | @code4 ds hlength h =>
    match ds, hlength with
    | [_, _, _, _], _ =>
      have hchar := charOfHex?_of_spelling h
      simp only [List.cons_append, List.nil_append, basicText, hchar]
  | @code8 ds hlength h =>
    match ds, hlength with
    | [_, _, _, _, _, _, _, _], _ =>
      have hchar := charOfHex?_of_spelling h
      simp only [List.cons_append, List.nil_append, basicText, hchar]

theorem basicText_of_parts {cs : List Char} {parts : List (List Char)}
    (h : List.Forall₂ CharSpelling cs parts) (rest : List Char) :
    basicText (parts.flatten ++ '"' :: rest) = some (cs, rest) := by
  induction h with
  | nil => rfl
  | cons hc _ ih => rw [List.flatten_cons, List.append_assoc, basicText_of_spelling hc, ih]; rfl

/-- The part of a character starts with no quote. -/
theorem CharSpelling.exists_cons {c : Char} {part : List Char} (h : CharSpelling c part) :
    ∃ d ds, part = d :: ds ∧ d ≠ '"' := by
  cases h with
  | plain _ hquote _ => exact ⟨_, _, rfl, hquote⟩
  | letter _ => exact ⟨_, _, rfl, by decide⟩
  | code4 _ _ => exact ⟨_, _, rfl, by decide⟩
  | code8 _ _ => exact ⟨_, _, rfl, by decide⟩

/-- A quoted text is read back, unless a third quote follows an empty one. -/
theorem quotedText_of_quoted {s : String} {text rest : List Char} (h : Quoted s text)
    (hrest : rest.head? ≠ some '"') :
    quotedText (text ++ rest) = some (s.toList, rest) := by
  obtain ⟨parts, hparts, rfl⟩ := h
  rw [List.cons_append, List.append_assoc, List.singleton_append, ← basicText_of_parts hparts rest,
    quotedText]
  -- three quotes would open a text on several lines
  intro more hmore
  generalize s.toList = cs at hparts
  cases hparts with
  | nil =>
    rw [List.flatten_nil, List.nil_append, List.cons.injEq] at hmore
    exact hrest (by rw [hmore.2]; rfl)
  | cons hc _ =>
    obtain ⟨d, ds, rfl, hd⟩ := hc.exists_cons
    rw [List.flatten_cons, List.append_assoc, List.cons_append, List.cons.injEq] at hmore
    exact hd hmore.1

/-! ### Keys -/

/-- The ways to write a key: bare if it can be, or quoted. -/
inductive KeySpelling (s : String) : List Char → Prop
  | bare (hne : s.toList ≠ []) (h : ∀ c ∈ s.toList, isBare c = true) : KeySpelling s s.toList
  | quoted {text : List Char} (h : Quoted s text) : KeySpelling s text

/-- The ways to write keys with dots between them. -/
inductive KeysSpelling : List String → List Char → Prop
  | one {s : String} {text : List Char} (h : KeySpelling s text) : KeysSpelling [s] text
  | cons {s : String} {keys : List String} {text more : List Char} (h : KeySpelling s text)
      (hmore : KeysSpelling keys more) : KeysSpelling (s :: keys) (text ++ '.' :: more)

/-- The ways to write a path. -/
def PathSpelling (p : Path) (text : List Char) : Prop :=
  KeysSpelling (p.parents ++ [p.key]) text ∧ p.parents.length < pathLimit

/-- A character that a key may start with. -/
def opensKey (c : Char) : Bool := isBare c || c == '"'

theorem ne_of_opensKey {c d : Char} (hc : opensKey c = true) (hd : opensKey d = false) : c ≠ d := by
  rintro rfl
  rw [hc] at hd
  cases hd

theorem isBlank_of_opensKey {c : Char} (hc : opensKey c = true) : isBlank c = false := by
  have hspace := ne_of_opensKey hc (d := ' ') (by decide)
  have htab := ne_of_opensKey hc (d := '\t') (by decide)
  simp [isBlank, hspace, htab]

theorem KeySpelling.exists_cons {s : String} {text : List Char} (h : KeySpelling s text) :
    ∃ c cs, text = c :: cs ∧ opensKey c = true := by
  cases h with
  | bare hne hbare =>
    obtain ⟨c, cs, hcs⟩ := List.exists_cons_of_ne_nil hne
    exact ⟨c, cs, hcs, by simp [opensKey, hbare c (by simp [hcs])]⟩
  | quoted h =>
    obtain ⟨_, _, rfl⟩ := h
    exact ⟨_, _, rfl, rfl⟩

theorem KeysSpelling.exists_cons {keys : List String} {text : List Char}
    (h : KeysSpelling keys text) :
    ∃ c cs, text = c :: cs ∧ opensKey c = true := by
  cases h with
  | one h => exact h.exists_cons
  | cons h _ =>
    obtain ⟨c, cs, rfl, hc⟩ := h.exists_cons
    exact ⟨c, _, rfl, hc⟩

theorem simpleKey_of_spelling {s : String} {text rest : List Char} (h : KeySpelling s text)
    (hrest : ∀ c ∈ rest.head?, isBare c = false) :
    simpleKey (text ++ rest) = some (s.toList, rest) := by
  cases h with
  | bare hne hbare =>
    have htake : (s.toList ++ rest).takeWhile isBare = s.toList := by
      rw [List.takeWhile_append_of_pos hbare]
      cases rest with
      | nil => simp
      | cons c rest => simp [hrest c rfl]
    have hdrop : (s.toList ++ rest).dropWhile isBare = rest := by
      rw [List.dropWhile_append_of_pos hbare]
      cases rest with
      | nil => rfl
      | cons c rest => exact List.dropWhile_cons_of_neg (by simp [hrest c rfl])
    have hfirst : ∀ d more, isBare d = false → s.toList ++ rest ≠ d :: more := by
      intro d more hd hmore
      obtain ⟨c, cs, hcs⟩ := List.exists_cons_of_ne_nil hne
      rw [hcs, List.cons_append, List.cons.injEq] at hmore
      have hc := hbare c (by simp [hcs])
      rw [hmore.1, hd] at hc
      cases hc
    rw [simpleKey, htake, hdrop, if_neg (by simpa using hne)]
    · exact fun more hmore => hfirst _ more (by decide) hmore
    · exact fun more hmore => hfirst _ more (by decide) hmore
  | quoted h =>
    obtain ⟨parts, hparts, rfl⟩ := h
    rw [List.cons_append, List.append_assoc, List.singleton_append, simpleKey,
      basicText_of_parts hparts]

theorem KeySpelling.dropWhile_isBlank {s : String} {text : List Char} (h : KeySpelling s text)
    (rest : List Char) :
    (text ++ rest).dropWhile isBlank = text ++ rest := by
  obtain ⟨c, cs, rfl, hc⟩ := h.exists_cons
  exact List.dropWhile_cons_of_neg (by simp [isBlank_of_opensKey hc])

/-- Keys are read back up to what cannot continue them; blanks after them are passed over. -/
theorem keyParts_of_spelling {keys : List String} {text rest : List Char}
    (h : KeysSpelling keys text) (hbare : ∀ c ∈ rest.head?, isBare c = false)
    (hdot : (rest.dropWhile isBlank).head? ≠ some '.') :
    keyParts (text ++ rest) = some (keys, rest.dropWhile isBlank) := by
  induction h with
  | one h =>
    rw [keyParts, h.dropWhile_isBlank, simpleKey_of_spelling h hbare]
    dsimp only
    split
    · next more hmore => exact absurd (by rw [hmore]; rfl) hdot
    · rw [String.ofList_toList]
  | @cons s keys text more h _ ih =>
    have hkey : simpleKey (text ++ '.' :: (more ++ rest)) =
        some (s.toList, '.' :: (more ++ rest)) :=
      simpleKey_of_spelling h (by rintro _ ⟨⟩; rfl)
    have hshorter : (more ++ rest).length < (text ++ '.' :: (more ++ rest)).length := by
      simp only [List.length_append, List.length_cons]
      omega
    rw [List.append_assoc, List.cons_append, keyParts, h.dropWhile_isBlank, hkey]
    show (if (more ++ rest).length <
      _ then (keyParts (more ++ rest)).map (push (String.ofList s.toList)) else none) = _
    rw [if_pos hshorter, ih, String.ofList_toList]
    rfl

theorem path_of_spelling {p : Path} {text rest : List Char} (h : PathSpelling p text)
    (hbare : ∀ c ∈ rest.head?, isBare c = false)
    (hdot : (rest.dropWhile isBlank).head? ≠ some '.') :
    path (text ++ rest) = some (p, rest.dropWhile isBlank) := by
  have hlimit : (p.parents ++ [p.key]).length ≤ pathLimit := by
    rw [List.length_append]
    exact h.2
  rw [path, keyParts_of_spelling h.1 hbare hdot]
  dsimp only
  rw [List.getLast?_concat]
  dsimp only
  rw [if_pos hlimit, List.dropLast_concat]

/-! ### Values -/

/-- Blanks and ends of lines. -/
def IsGap (gap : List Char) : Prop := ∀ c ∈ gap, c ∈ [' ', '\t', '\n']

/-- The ways to write the items of an array, up to its end. -/
inductive ItemsSpelling : List String → List Char → Prop
  | last {s : String} {text gap : List Char} (h : Quoted s text) (hgap : IsGap gap) :
      ItemsSpelling [s] (text ++ (gap ++ [']']))
  | lastComma {s : String} {text gap gap' : List Char} (h : Quoted s text) (hgap : IsGap gap)
      (hgap' : IsGap gap') :
      ItemsSpelling [s] (text ++ (gap ++ ',' :: (gap' ++ [']'])))
  | cons {s : String} {items : List String} {text gap gap' more : List Char} (h : Quoted s text)
      (hgap : IsGap gap) (hgap' : IsGap gap') (hmore : ItemsSpelling items more) :
      ItemsSpelling (s :: items) (text ++ (gap ++ ',' :: (gap' ++ more)))

/-- The ways to write a text, a truth value or an array of texts. -/
inductive ValueSpelling : Value → List Char → Prop
  | string {s : String} {text : List Char} (h : Quoted s text) : ValueSpelling (.string s) text
  | true : ValueSpelling (.boolean true) "true".toList
  | false : ValueSpelling (.boolean false) "false".toList
  | empty {gap : List Char} (hgap : IsGap gap) : ValueSpelling (.array []) ('[' :: (gap ++ [']']))
  | array {items : List String} {gap text : List Char} (hgap : IsGap gap)
      (h : ItemsSpelling items text) :
      ValueSpelling (.array (items.map .string)) ('[' :: (gap ++ text))

theorem skipTrivia_gap {gap : List Char} (h : IsGap gap) {c : Char} (hc : c ∈ ['"', ',', ']'])
    (rest : List Char) :
    skipTrivia false (gap ++ c :: rest) = some (c :: rest) := by
  induction gap with
  | nil =>
    simp only [List.mem_cons, List.not_mem_nil, or_false] at hc
    rcases hc with rfl | rfl | rfl <;> rfl
  | cons d gap ih =>
    rw [← ih fun e he => h e (List.mem_cons_of_mem _ he)]
    have hd := h d (List.mem_cons_self ..)
    simp only [List.mem_cons, List.not_mem_nil, or_false] at hd
    rcases hd with rfl | rfl | rfl <;> rfl

theorem Quoted.exists_cons {s : String} {text : List Char} (h : Quoted s text) :
    ∃ cs, text = '"' :: cs := by
  obtain ⟨parts, _, rfl⟩ := h
  exact ⟨_, rfl⟩

theorem value_of_quoted {s : String} {text rest : List Char} (h : Quoted s text)
    (hrest : rest.head? ≠ some '"') (room : Nat) :
    value room (text ++ rest) = some (.string s, rest) := by
  have hread := quotedText_of_quoted h hrest
  obtain ⟨cs, rfl⟩ := h.exists_cons
  rw [List.cons_append] at hread ⊢
  rw [value, hread, Option.map_some, String.ofList_toList]

theorem ItemsSpelling.exists_cons {items : List String} {text : List Char}
    (h : ItemsSpelling items text) :
    ∃ cs, text = '"' :: cs := by
  cases h with
  | last h _ | lastComma h _ _ | cons h _ _ _ =>
    obtain ⟨cs, rfl⟩ := h.exists_cons
    exact ⟨_, rfl⟩

theorem head?_gap_append {gap : List Char} (h : IsGap gap) {rest : List Char}
    (hrest : rest.head? ≠ some '"') :
    (gap ++ rest).head? ≠ some '"' := by
  cases gap with
  | nil => exact hrest
  | cons c gap =>
    rintro ⟨⟩
    exact absurd (h _ (List.mem_cons_self ..)) (by decide)

/-- The items of an array are read one by one. -/
theorem items_of_spelling {texts : List String} {text : List Char} (h : ItemsSpelling texts text)
    (room : Nat) (rest : List Char) :
    items (value room) (text ++ rest) = some (texts.map .string, rest) := by
  induction h with
  | @last s text gap h hgap =>
    have hfollow : (gap ++ ']' :: rest).head? ≠ some '"' := head?_gap_append hgap (by simp)
    have hitem := value_of_quoted h hfollow room
    have hend := skipTrivia_gap hgap (c := ']') (by simp) rest
    rw [List.append_assoc, List.append_assoc, List.singleton_append, items]
    simp only [hitem, hend, List.map_cons, List.map_nil]
  | @lastComma s text gap gap' h hgap hgap' =>
    have hfollow : (gap ++ ',' :: (gap' ++ ']' :: rest)).head? ≠ some '"' :=
      head?_gap_append hgap (by simp)
    have hitem := value_of_quoted h hfollow room
    have hcomma := skipTrivia_gap hgap (c := ',') (by simp) (gap' ++ ']' :: rest)
    have hend := skipTrivia_gap hgap' (c := ']') (by simp) rest
    rw [List.append_assoc, List.append_assoc, List.cons_append, List.append_assoc,
      List.singleton_append, items]
    simp only [hitem, hcomma, hend, List.map_cons, List.map_nil]
  | @cons s texts text gap gap' more h hgap hgap' hmore ih =>
    have hfollow : (gap ++ ',' :: (gap' ++ (more ++ rest))).head? ≠ some '"' :=
      head?_gap_append hgap (by simp)
    have hitem := value_of_quoted h hfollow room
    have hcomma := skipTrivia_gap hgap (c := ',') (by simp) (gap' ++ (more ++ rest))
    have hshorter : (more ++ rest).length <
        (text ++ (gap ++ ',' :: (gap' ++ (more ++ rest)))).length := by
      simp only [List.length_append, List.length_cons]
      omega
    rw [List.append_assoc, List.append_assoc, List.cons_append, List.append_assoc, items]
    -- the quote of the next text shows that the comma is not the last one
    obtain ⟨cs, rfl⟩ := hmore.exists_cons
    have hnext := skipTrivia_gap hgap' (c := '"') (by simp) (cs ++ rest)
    rw [List.cons_append] at ih hitem hcomma hshorter ⊢
    simp only [hitem, hcomma, hnext]
    show (if _ < _ then (items (value room) ('"' :: (cs ++ rest))).map (push (.string s))
      else none) = _
    rw [if_pos hshorter, ih]
    rfl

/-- A value is read up to the end of its line. -/
theorem value_of_spelling {v : Value} {text : List Char} (h : ValueSpelling v text)
    (rest : List Char) :
    value nestingLimit (text ++ '\n' :: rest) = some (v, '\n' :: rest) := by
  cases h with
  | string h => exact value_of_quoted h (by simp) nestingLimit
  | true => rfl
  | false => rfl
  | @empty gap hgap =>
    have hend := skipTrivia_gap hgap (c := ']') (by simp) ('\n' :: rest)
    rw [List.cons_append, List.append_assoc, List.singleton_append, nestingLimit, value]
    simp only [hend]
  | @array items gap text hgap h =>
    have hitems := items_of_spelling h 78 ('\n' :: rest)
    obtain ⟨cs, rfl⟩ := h.exists_cons
    have hnext := skipTrivia_gap hgap (c := '"') (by simp) (cs ++ '\n' :: rest)
    rw [List.cons_append] at hitems
    rw [List.cons_append, List.append_assoc, List.cons_append, nestingLimit, value]
    simp only [hnext]
    show (Toml.items (value 78) ('"' :: (cs ++ '\n' :: rest))).map _ = _
    rw [hitems]
    rfl

/-! ### Lines -/

/-- The ways to write a line: one that says nothing, a key and its value, or the header of a
table. -/
inductive LineSpelling : Option Statement → List Char → Prop
  | blank : LineSpelling none []
  | comment {body : List Char} (h : ∀ c ∈ body, isPlain c = true) : LineSpelling none ('#' :: body)
  | pair {p : Path} {v : Value} {key text : List Char} (hpath : PathSpelling p key)
      (h : ValueSpelling v text) :
      LineSpelling (some (.pair p v)) (key ++ (" = ".toList ++ text))
  | header {p : Path} {key : List Char} (hpath : PathSpelling p key) :
      LineSpelling (some (.header (.table p))) ('[' :: (key ++ [']']))

/-- The ways to write statements as lines. -/
inductive Spelling : List Statement → List Char → Prop
  | nil : Spelling [] []
  | cons {said : Option Statement} {ss : List Statement} {line text : List Char}
      (h : LineSpelling said line) (hrest : Spelling ss text) :
      Spelling (said.toList ++ ss) (line ++ '\n' :: text)

/-- No line ends where a key starts. -/
theorem lineEnd?_of_opensKey {c : Char} (hc : opensKey c = true) (cs : List Char) :
    lineEnd? (c :: cs) = none := by
  have hdrop : (c :: cs).dropWhile isBlank = c :: cs :=
    List.dropWhile_cons_of_neg (by simp [isBlank_of_opensKey hc])
  have hcomment : (c :: cs).head? ≠ some '#' := by
    simpa using ne_of_opensKey hc (d := '#') (by decide)
  have hnewline : newline? (c :: cs) = none := by
    rw [newline?]
    · exact fun rest h => ne_of_opensKey hc (d := '\n') (by decide) (List.cons.inj h).1
    · exact fun rest h => ne_of_opensKey hc (d := '\r') (by decide) (List.cons.inj h).1
  unfold lineEnd?
  simp only [hdrop, if_neg hcomment, hnewline]

theorem lineEnd?_comment {body : List Char} (h : ∀ c ∈ body, isPlain c = true) (rest : List Char) :
    lineEnd? ('#' :: (body ++ '\n' :: rest)) = some rest := by
  have hblank : ('#' :: (body ++ '\n' :: rest)).dropWhile isBlank = '#' :: (body ++ '\n' :: rest) :=
    rfl
  have hplain : ('#' :: (body ++ '\n' :: rest)).dropWhile isPlain = '\n' :: rest := by
    rw [List.dropWhile_cons_of_pos (by decide), List.dropWhile_append_of_pos h]
    rfl
  unfold lineEnd?
  simp only [hblank, List.head?_cons, if_true, hplain, newline?]

theorem ValueSpelling.dropWhile_isBlank {v : Value} {text : List Char} (h : ValueSpelling v text)
    (rest : List Char) :
    (text ++ rest).dropWhile isBlank = text ++ rest := by
  cases h with
  | string h =>
    obtain ⟨cs, rfl⟩ := h.exists_cons
    rfl
  | true | false | empty _ | array _ _ => rfl

theorem keyValue_of_spelling {p : Path} {v : Value} {key text : List Char}
    (hpath : PathSpelling p key) (h : ValueSpelling v text) (rest : List Char) :
    keyValue (value nestingLimit) (key ++ (" = ".toList ++ (text ++ '\n' :: rest))) =
      some ((p, v), '\n' :: rest) := by
  have hkey : path (key ++ (" = ".toList ++ (text ++ '\n' :: rest))) =
      some (p, '=' :: ' ' :: (text ++ '\n' :: rest)) :=
    path_of_spelling hpath (by rintro _ ⟨⟩; rfl) (fun hdot => by cases hdot)
  have hblank : (' ' :: (text ++ '\n' :: rest)).dropWhile isBlank = text ++ '\n' :: rest :=
    h.dropWhile_isBlank _
  unfold keyValue
  simp only [hkey, hblank, value_of_spelling h rest]
  rfl

theorem header_of_spelling {p : Path} {key : List Char} (hpath : PathSpelling p key)
    (rest : List Char) :
    header ('[' :: (key ++ ']' :: '\n' :: rest)) = some (.table p, '\n' :: rest) := by
  have hread : path (key ++ ']' :: '\n' :: rest) = some (p, ']' :: '\n' :: rest) :=
    path_of_spelling hpath (by rintro _ ⟨⟩; rfl) (fun hdot => by cases hdot)
  rw [header]
  · simp only [hread]
  · intro more hmore
    obtain ⟨c, cs, rfl, hc⟩ := hpath.1.exists_cons
    exact ne_of_opensKey hc (d := '[') (by decide) (List.cons.inj hmore).1

/-- A line is read as what it says. -/
theorem line_of_spelling {said : Option Statement} {text : List Char} (h : LineSpelling said text)
    (rest : List Char) :
    line (text ++ '\n' :: rest) = some (said, rest) := by
  cases h with
  | blank => rfl
  | comment h => rw [line, List.cons_append, lineEnd?_comment h]
  | @pair p v key text hpath h =>
    have hread := keyValue_of_spelling hpath h rest
    obtain ⟨c, cs, rfl, hc⟩ := hpath.1.exists_cons
    have hdrop : ∀ more, (c :: more).dropWhile isBlank = c :: more := fun more =>
      List.dropWhile_cons_of_neg (by simp [isBlank_of_opensKey hc])
    simp only [List.cons_append, List.append_assoc] at hread ⊢
    rw [line, lineEnd?_of_opensKey hc, hdrop, statement, hread]
    · rfl
    · exact fun more hmore => ne_of_opensKey hc (d := '[') (by decide) (List.cons.inj hmore).1
  | @header p key hpath =>
    rw [List.cons_append, List.append_assoc, List.singleton_append]
    have hend : lineEnd? ('[' :: (key ++ ']' :: '\n' :: rest)) = none := rfl
    have hdrop : ('[' :: (key ++ ']' :: '\n' :: rest)).dropWhile isBlank =
        '[' :: (key ++ ']' :: '\n' :: rest) := rfl
    rw [line, hend, hdrop, statement, header_of_spelling hpath]
    rfl

/-- Lines are read one by one. -/
theorem statements_of_spelling {ss : List Statement} {text : List Char} (h : Spelling ss text) :
    statements text = some ss := by
  induction h with
  | nil => rw [statements]
  | @cons said ss line text h _ ih =>
    -- the end of the line is one character at least, so what is left is shorter
    have hline := line_of_spelling h text
    obtain ⟨c, cs, hcs⟩ : ∃ c cs, line ++ '\n' :: text = c :: cs :=
      List.exists_cons_of_ne_nil (by simp)
    have hshorter : text.length ≤ cs.length := by
      have := congrArg List.length hcs
      simp only [List.length_append, List.length_cons] at this
      omega
    rw [hcs] at hline ⊢
    rw [statements, hline]
    dsimp only
    rw [if_pos hshorter, ih]
    rfl

/-- Statements after statements are written in lines after lines. -/
theorem Spelling.append {ss ts : List Statement} {text more : List Char} (h : Spelling ss text)
    (hmore : Spelling ts more) : Spelling (ss ++ ts) (text ++ more) := by
  induction h with
  | nil => exact hmore
  | cons h _ ih =>
    rw [List.append_assoc, List.append_assoc, List.cons_append]
    exact .cons h ih

/-- A document starts with no byte order mark. -/
theorem dropMark_of_spelling {ss : List Statement} {text : List Char} (h : Spelling ss text) :
    dropMark text = text := by
  cases h with
  | nil => rfl
  | cons h _ =>
    cases h with
    | blank | comment _ | header _ => rfl
    | pair hpath _ =>
      obtain ⟨c, cs, rfl, hc⟩ := hpath.1.exists_cons
      exact dropMark.eq_2 _ fun rest hrest => ne_of_opensKey hc (by decide) (List.cons.inj hrest).1

/-- Lines that say nothing may stand in front. -/
theorem spelling_comments {comments : List (List Char)}
    (h : ∀ line ∈ comments, LineSpelling none line) {ss : List Statement} {text : List Char}
    (htext : Spelling ss text) :
    Spelling ss (comments.flatMap (· ++ ['\n']) ++ text) := by
  induction comments with
  | nil => exact htext
  | cons line comments ih =>
    have hrest := Spelling.cons (h line (List.mem_cons_self ..))
      (ih fun l hl => h l (List.mem_cons_of_mem _ hl))
    rw [List.flatMap_cons, List.append_assoc, List.append_assoc]
    exact hrest

/-! ### The writer -/

theorem hexSpelling_code {n : Nat} (h : n < 256) :
    HexSpelling n ['0', '0', Hex.digit (n / 16), Hex.digit (n % 16)] := by
  refine ⟨[0, 0, n / 16, n % 16], ?_, ?_⟩
  · exact .cons rfl
      (.cons rfl (.cons (Hex.value?_digit (by omega)) (.cons (Hex.value?_digit (by omega)) .nil)))
  · show 16 * (16 * (16 * (16 * 0 + 0) + 0) + n / 16) + n % 16 = n
    omega

theorem charSpelling_escape (c : Char) : CharSpelling c (escape c) := by
  unfold escape
  split
  · next h => exact .letter (by simp [h, letters])
  · next hquote =>
    split
    · next h => exact .letter (by simp [h, letters])
    · next hback =>
      split
      · next hcontrol => exact .code4 rfl (hexSpelling_code (by omega))
      · next hcontrol =>
        rw [not_or, Nat.not_lt] at hcontrol
        exact .plain (by simp [isPlain, hcontrol]) hquote hback

theorem quoted_quote (s : String) : Quoted s (quote s) := by
  refine ⟨s.toList.map escape, ?_, ?_⟩
  · rw [List.forall₂_map_right_iff]
    exact List.forall₂_same.2 fun c _ => charSpelling_escape c
  · rw [quote, List.flatMap_def]

theorem isGap_nil : IsGap [] := fun _ h => by cases h

theorem itemsSpelling_commaSeparated (s : String) (items : List String) :
    ItemsSpelling (s :: items) (commaSeparated ((s :: items).map quote) ++ [']']) := by
  induction items generalizing s with
  | nil => exact .last (quoted_quote s) isGap_nil
  | cons s' items ih =>
    have hgap : IsGap [' '] := by simp [IsGap]
    have hcons := ItemsSpelling.cons (quoted_quote s) isGap_nil hgap (ih s')
    rw [List.map_cons, List.map_cons, commaSeparated, List.append_assoc]
    exact hcons

theorem valueSpelling_quoteAll (items : List String) :
    ValueSpelling (.array (items.map .string)) (quoteAll items) := by
  cases items with
  | nil => exact .empty isGap_nil
  | cons s items =>
    have harray := ValueSpelling.array isGap_nil (itemsSpelling_commaSeparated s items)
    exact harray

theorem valueSpelling_truth (b : Bool) : ValueSpelling (.boolean b) (truth b) := by
  cases b with
  | true => exact .true
  | false => exact .false

/-- A word may stand as a key as it is. -/
theorem keySpelling_word {key : String} (hne : key.toList.isEmpty = false)
    (h : key.toList.all isBare = true) :
    KeySpelling key key.toList :=
  .bare (by simpa using hne) (List.all_eq_true.1 h)

/-- A line that sets a key. -/
theorem spelling_setting (key : String) {v : Value} {text : List Char}
    (hkey : KeySpelling key key.toList) (h : ValueSpelling v text) :
    Spelling [.pair ⟨[], key⟩ v] (setting key text) := by
  have hline : LineSpelling (some (.pair ⟨[], key⟩ v)) (key.toList ++ (" = ".toList ++ text)) :=
    .pair ⟨.one hkey, by simp [pathLimit]⟩ h
  have hlines := Spelling.cons hline .nil
  rw [List.append_assoc, List.append_assoc] at hlines
  exact hlines

/-- The line of a header. -/
theorem spelling_header {p : Path} {key : List Char} (h : PathSpelling p key) :
    Spelling [.header (.table p)] ('[' :: (key ++ "]\n".toList)) := by
  have hlines := Spelling.cons (LineSpelling.header h) .nil
  rw [List.cons_append, List.append_assoc] at hlines
  exact hlines

theorem spelling_blank : Spelling [] ['\n'] := .cons .blank .nil

end DockerfileLint.Toml
