import DockerfileLint.Decimal
import DockerfileLint.Hex
import DockerfileLint.Json.Basic

/-!
# JSON tokens

The words of a JSON text: punctuation, literals, numbers and texts. `Token.spell` writes a token,
`Token.lex` reads a text into tokens and skips the blanks between them.

* A text escapes the quote, the backslash and the control characters, and nothing else.
* Reading a text goes in two steps: `pieces` finds its end and reads the escapes, `join` puts
  surrogate pairs together and fails where a half stands alone.
-/

namespace DockerfileLint.Json

/-- A word of a JSON text. -/
inductive Token where
  | openArray
  | closeArray
  | openObject
  | closeObject
  | comma
  | colon
  | null
  | bool (b : Bool)
  | integer (n : Int)
  | decimal (spelling : List Char)
  | text (content : Option String)
  deriving DecidableEq

/-! ### Texts -/

/-- The number that four hexadecimal digits stand for. -/
def hexValue4? (a b c d : Char) : Option Nat := do
  let a ← Hex.value? a
  let b ← Hex.value? b
  let c ← Hex.value? c
  let d ← Hex.value? d
  pure (4096 * a + 256 * b + 16 * c + d)

/-- How a character is written inside a text. -/
def escape (c : Char) : List Char :=
  if c = '"' then ['\\', '"']
  else if c = '\\' then ['\\', '\\']
  else if c.toNat = 8 then ['\\', 'b']
  else if c.toNat = 9 then ['\\', 't']
  else if c.toNat = 10 then ['\\', 'n']
  else if c.toNat = 12 then ['\\', 'f']
  else if c.toNat = 13 then ['\\', 'r']
  else if c.toNat < 32 then ['\\', 'u', '0', '0', Hex.digit (c.toNat / 16),
    Hex.digit (c.toNat % 16)]
  else [c]

/-- The character that a letter after a backslash stands for. -/
def shortEscape? (e : Char) : Option Char :=
  if e = '"' ∨ e = '\\' ∨ e = '/' then some e
  else if e = 'b' then some (Char.ofNat 8)
  else if e = 't' then some '\t'
  else if e = 'n' then some '\n'
  else if e = 'f' then some (Char.ofNat 12)
  else if e = 'r' then some '\r'
  else none

/-- What a text is made of: characters, and numbers written as four hexadecimal digits. -/
inductive Piece where
  | char (c : Char)
  | unit (n : Nat)
  deriving DecidableEq

/-- A piece in front of those already read. -/
def Piece.push (p : Piece) (r : List Piece × List Char) : List Piece × List Char := (p :: r.1, r.2)

/-- The pieces up to the closing quote, and what follows it. -/
def pieces : List Char → Option (List Piece × List Char)
  | [] => none
  | c :: cs =>
    if c = '"' then some ([], cs)
    else if c = '\\' then
      match cs with
      | 'u' :: a :: b :: c :: d :: rest =>
        match hexValue4? a b c d with
        | some n => (pieces rest).map (Piece.unit n).push
        | none => none
      | e :: rest =>
        match shortEscape? e with
        | some c => (pieces rest).map (Piece.char c).push
        | none => none
      | [] => none
    else if c.toNat < 32 then none
    else (pieces cs).map (Piece.char c).push

/-- The number is the first half of a surrogate pair. -/
def isHigh (n : Nat) : Bool := decide (0xD800 ≤ n ∧ n < 0xDC00)

/-- The number is the second half of a surrogate pair. -/
def isLow (n : Nat) : Bool := decide (0xDC00 ≤ n ∧ n < 0xE000)

/-- The characters of the pieces, unless half of a surrogate pair stands alone. -/
def join : List Piece → Option (List Char)
  | [] => some []
  | .char c :: rest => (join rest).map (c :: ·)
  | .unit n :: rest =>
    if isHigh n then
      match rest with
      | .unit m :: rest =>
        if isLow m then (join rest).map
          (Char.ofNat (0x10000 + 0x400 * (n - 0xD800) + (m - 0xDC00)) :: ·)
        else none
      | _ => none
    else if isLow n then none
    else (join rest).map (Char.ofNat n :: ·)

/-! ### Numbers -/

/-- The digits at the start, and the rest. -/
def spanDigits (cs : List Char) : List Char × List Char :=
  (cs.takeWhile Char.isDigit, cs.dropWhile Char.isDigit)

/-- The whole part of a number: a zero, or digits that do not start with one. -/
def wholePart (cs : List Char) : List Char × List Char :=
  match cs with
  | '0' :: rest => (['0'], rest)
  | _ => spanDigits cs

/-- The fraction of a number, if one follows. -/
def fraction (cs : List Char) : List Char × List Char :=
  match cs with
  | '.' :: rest =>
    if (spanDigits rest).1.isEmpty then ([], cs)
      else ('.' :: (spanDigits rest).1, (spanDigits rest).2)
  | _ => ([], cs)

/-- The sign of an exponent, if one follows. -/
def exponentSign (cs : List Char) : List Char × List Char :=
  match cs with
  | '+' :: rest => (['+'], rest)
  | '-' :: rest => (['-'], rest)
  | _ => ([], cs)

/-- The exponent of a number after its mark, if one follows. -/
def exponentAfter (mark : Char) (rest cs : List Char) : List Char × List Char :=
  let sign := exponentSign rest
  let power := spanDigits sign.2
  if power.1.isEmpty then ([], cs) else (mark :: sign.1 ++ power.1, power.2)

/-- The exponent of a number, if one follows. -/
def exponent (cs : List Char) : List Char × List Char :=
  match cs with
  | 'e' :: rest => exponentAfter 'e' rest cs
  | 'E' :: rest => exponentAfter 'E' rest cs
  | _ => ([], cs)

/-- The number that starts the text, without its sign, and the rest. -/
def number (negative : Bool) (cs : List Char) : Option (Token × List Char) :=
  let whole := wholePart cs
  let frac := fraction whole.2
  let power := exponent frac.2
  if whole.1.isEmpty then none
  else if frac.1.isEmpty && power.1.isEmpty && !(negative && whole.1 == ['0']) then
    let n : Int := Decimal.value whole.1
    some (.integer (if negative then -n else n), power.2)
  else some (.decimal ((if negative then ['-'] else []) ++ whole.1 ++ frac.1 ++ power.1), power.2)

/-! ### Tokens -/

namespace Token

/-- The spelling of a token. A text without content is spelled by half of a surrogate pair. -/
def spell : Token → List Char
  | openArray => ['[']
  | closeArray => [']']
  | openObject => ['\x7b']
  | closeObject => ['\x7d']
  | comma => [',']
  | colon => [':']
  | null => "null".toList
  | bool true => "true".toList
  | bool false => "false".toList
  | integer n => Decimal.ofInt n
  | decimal spelling => spelling
  | text (some s) => '"' :: (s.toList.flatMap escape ++ ['"'])
  | text none => "\"\\ud800\"".toList

/-- The blanks that may stand between tokens. -/
def isSpace (c : Char) : Bool := c == ' ' || c == '\t' || c == '\n' || c == '\r'

/-- The rest of the text after a given start. -/
def dropStart? (start cs : List Char) : Option (List Char) :=
  if start.isPrefixOf cs then some (cs.drop start.length) else none

/-- The token that a character of punctuation is. -/
def punctuation? (c : Char) : Option Token :=
  if c = '[' then some openArray
  else if c = ']' then some closeArray
  else if c = '\x7b' then some openObject
  else if c = '\x7d' then some closeObject
  else if c = ',' then some comma
  else if c = ':' then some colon
  else none

/-- The literal that starts with a character, and the rest of its spelling. -/
def literal? (c : Char) : Option (Token × List Char) :=
  if c = 'n' then some (null, "ull".toList)
  else if c = 't' then some (bool true, "rue".toList)
  else if c = 'f' then some (bool false, "alse".toList)
  else none

/-- The token that starts with character `c`, and the rest. -/
def next? (c : Char) (cs : List Char) : Option (Token × List Char) :=
  match punctuation? c with
  | some t => some (t, cs)
  | none =>
    match literal? c with
    | some (t, ending) => (dropStart? ending cs).map fun rest => (t, rest)
    | none =>
      if c = '"' then (pieces cs).map fun r => (text ((join r.1).map String.ofList), r.2)
      else if c = '-' then number true cs
      else if c.isDigit then number false (c :: cs)
      else none

end Token

/-! ### Every token takes characters away -/

theorem length_pieces {cs : List Char} {r : List Piece × List Char} (h : pieces cs = some r) :
    r.2.length < cs.length := by
  fun_induction pieces cs generalizing r <;> grind [Piece.push, Option.map_eq_some_iff]

theorem length_dropWhile_le (p : Char → Bool) (cs : List Char) :
    (cs.dropWhile p).length ≤ cs.length :=
  (List.dropWhile_suffix p).length_le

theorem length_fraction (cs : List Char) : (fraction cs).2.length ≤ cs.length := by
  unfold fraction
  split
  · rename_i rest
    have := length_dropWhile_le Char.isDigit rest
    split <;> simp [spanDigits]
    omega
  · simp

theorem length_exponentAfter (mark : Char) (rest cs : List Char) (h : rest.length ≤ cs.length) :
    (exponentAfter mark rest cs).2.length ≤ cs.length := by
  have hs : (exponentSign rest).2.length ≤ rest.length := by
    unfold exponentSign
    split <;> simp
  have hd := length_dropWhile_le Char.isDigit (exponentSign rest).2
  grind [exponentAfter, spanDigits]

theorem length_exponent (cs : List Char) : (exponent cs).2.length ≤ cs.length := by
  unfold exponent
  split
  · exact length_exponentAfter _ _ _ (by simp)
  · exact length_exponentAfter _ _ _ (by simp)
  · simp

theorem length_wholePart {cs : List Char} (h : (wholePart cs).1 ≠ []) :
    (wholePart cs).2.length < cs.length := by
  unfold wholePart at h ⊢
  split
  · simp
  · rename_i h0
    simp only [spanDigits] at h ⊢
    have hsplit := List.takeWhile_append_dropWhile (p := Char.isDigit) (l := cs)
    have hlen := congrArg List.length hsplit
    have hpos : 0 < (cs.takeWhile Char.isDigit).length :=
      List.length_pos_iff.2 (by simpa [h0] using h)
    simp only [List.length_append] at hlen
    omega

theorem length_number {negative : Bool} {cs : List Char} {r : Token × List Char}
    (h : number negative cs = some r) : r.2.length < cs.length := by
  unfold number at h
  simp only at h
  split at h
  · simp at h
  · rename_i hne
    have h1 := @length_wholePart cs (by simpa using hne)
    have h2 := length_fraction (wholePart cs).2
    have h3 := length_exponent (fraction (wholePart cs).2).2
    split at h <;> simp at h <;> subst h <;> simp <;> omega

theorem Token.length_dropStart? {start cs rest : List Char} (h : dropStart? start cs = some rest) :
    rest.length ≤ cs.length := by
  grind [dropStart?]

theorem Token.length_next? {c : Char} {cs : List Char} {r : Token × List Char}
    (h : next? c cs = some r) :
    r.2.length ≤ cs.length := by
  have hp := @length_pieces cs
  have hd := @length_dropStart?
  have hm := @length_number true cs r
  have hn := @length_number false (c :: cs) r
  unfold next? at h
  grind [Option.map_eq_some_iff]

/-- The tokens of a text. -/
def Token.lex : List Char → Option (List Token)
  | [] => some []
  | c :: cs =>
    if isSpace c then lex cs
    else match _h : next? c cs with
      | none => none
      | some (t, rest) => (lex rest).map (t :: ·)
termination_by cs => cs.length
decreasing_by
  · simp
  · have := length_next? _h
    simp only [List.length_cons] at *
    omega

end DockerfileLint.Json
