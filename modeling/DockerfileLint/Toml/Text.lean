import DockerfileLint.Hex

/-!
# Texts, keys and blanks of TOML

A reader takes characters from the front and gives what they stand for and the characters that
remain.

* A text stands between quotes (with escapes) or apostrophes (without), on one line or, between
  three of them, on several. The end of a line inside a text is a line feed, however it is written.
* At the end of a text on several lines up to two further quotes belong to it.
* A key is a text on one line or a bare word; dots join keys to a path.
-/

namespace DockerfileLint.Toml

/-- What the characters at the front stand for, and the rest. -/
abbrev Reader (α : Type) := List Char → Option (α × List Char)

/-- A character in front of those already read. -/
def push {α : Type} (a : α) (r : List α × List Char) : List α × List Char := (a :: r.1, r.2)

/-! ### Characters -/

/-- A blank inside a line. -/
def isBlank (c : Char) : Bool := c == ' ' || c == '\t'

/-- A character that may stand in a comment or a text: all but the control characters, save the
tab. -/
def isPlain (c : Char) : Bool := c == '\t' || (decide (32 ≤ c.toNat) && c.toNat != 127)

/-- A character of a bare key. -/
def isBare (c : Char) : Bool := c.isAlphanum || c == '_' || c == '-'

/-- The character with the code that hexadecimal digits spell. -/
def charOfHex? (cs : List Char) : Option Char := do
  let ds ← cs.mapM Hex.value?
  let n := ds.foldl (fun n d => 16 * n + d) 0
  if n.isValidChar then some (Char.ofNat n) else none

/-- The character that a letter after a backslash stands for. -/
def shortEscape? (e : Char) : Option Char :=
  if e = '"' ∨ e = '\\' then some e
  else if e = 'b' then some (Char.ofNat 8)
  else if e = 't' then some '\t'
  else if e = 'n' then some '\n'
  else if e = 'f' then some (Char.ofNat 12)
  else if e = 'r' then some '\r'
  else none

/-! ### Ends of lines -/

/-- What follows the end of a line that stands in front. -/
def newline? : List Char → Option (List Char)
  | '\n' :: rest => some rest
  | '\r' :: '\n' :: rest => some rest
  | _ => none

/-- The characters without the end of a line that may stand in front. -/
def dropNewline (cs : List Char) : List Char := (newline? cs).getD cs

/-- What follows the end of a line or of the document, after blanks and a comment. -/
def lineEnd? (cs : List Char) : Option (List Char) :=
  let rest := cs.dropWhile isBlank
  let rest := if rest.head? = some '#' then rest.dropWhile isPlain else rest
  match rest with
  | [] => some []
  | _ => newline? rest

/-- What follows blanks, comments and ends of lines, or nothing when a comment holds a control
character. -/
def skipTrivia (inComment : Bool) : List Char → Option (List Char)
  | [] => some []
  | '\n' :: rest => skipTrivia false rest
  | '\r' :: '\n' :: rest => skipTrivia false rest
  | c :: rest =>
    if inComment then if isPlain c then skipTrivia true rest else none
    else if c = '#' then skipTrivia true rest
    else if isBlank c then skipTrivia false rest
    else some (c :: rest)

/-! ### Texts -/

/-- A text after its opening quote. -/
def basicText : Reader (List Char)
  | [] => none
  | '"' :: rest => some ([], rest)
  | '\\' :: 'u' :: a :: b :: c :: d :: rest =>
    match charOfHex? [a, b, c, d] with
    | some x => (basicText rest).map (push x)
    | none => none
  | '\\' :: 'U' :: a :: b :: c :: d :: e :: f :: g :: h :: rest =>
    match charOfHex? [a, b, c, d, e, f, g, h] with
    | some x => (basicText rest).map (push x)
    | none => none
  | '\\' :: e :: rest =>
    match shortEscape? e with
    | some x => (basicText rest).map (push x)
    | none => none
  | c :: rest => if isPlain c && c != '\\' then (basicText rest).map (push c) else none

/-- A text after its opening apostrophe. -/
def literalText : Reader (List Char)
  | [] => none
  | '\x27' :: rest => some ([], rest)
  | c :: rest => if isPlain c then (literalText rest).map (push c) else none

/-- Whether a backslash in front of these characters drops the end of the line and the blanks after
it. -/
def continuesLine (cs : List Char) : Bool := (newline? (cs.dropWhile isBlank)).isSome

/-- A text on several lines after its three opening quotes. After a backslash at the end of a line
blanks and ends of lines are skipped. -/
def multiBasicText (skipping : Bool) : Reader (List Char)
  | [] => none
  | '\n' :: rest =>
    if skipping then multiBasicText true rest else (multiBasicText false rest).map (push '\n')
  | '\r' :: '\n' :: rest =>
    if skipping then multiBasicText true rest else (multiBasicText false rest).map (push '\n')
  | '"' :: '"' :: '"' :: '"' :: '"' :: rest => some (['"', '"'], rest)
  | '"' :: '"' :: '"' :: '"' :: rest => some (['"'], rest)
  | '"' :: '"' :: '"' :: rest => some ([], rest)
  | '\\' :: 'u' :: a :: b :: c :: d :: rest =>
    match charOfHex? [a, b, c, d] with
    | some x => (multiBasicText false rest).map (push x)
    | none => none
  | '\\' :: 'U' :: a :: b :: c :: d :: e :: f :: g :: h :: rest =>
    match charOfHex? [a, b, c, d, e, f, g, h] with
    | some x => (multiBasicText false rest).map (push x)
    | none => none
  | '\\' :: e :: rest =>
    if continuesLine (e :: rest) then multiBasicText true (e :: rest)
    else match shortEscape? e with
      | some x => (multiBasicText false rest).map (push x)
      | none => none
  | c :: rest =>
    if skipping && isBlank c then multiBasicText true rest
    else if isPlain c && c != '\\' then (multiBasicText false rest).map (push c)
    else none

/-- A text on several lines after its three opening apostrophes. -/
def multiLiteralText : Reader (List Char)
  | [] => none
  | '\r' :: '\n' :: rest => (multiLiteralText rest).map (push '\n')
  | '\x27' :: '\x27' :: '\x27' :: '\x27' :: '\x27' :: rest => some (['\x27', '\x27'], rest)
  | '\x27' :: '\x27' :: '\x27' :: '\x27' :: rest => some (['\x27'], rest)
  | '\x27' :: '\x27' :: '\x27' :: rest => some ([], rest)
  | c :: rest => if isPlain c || c == '\n' then (multiLiteralText rest).map (push c) else none

/-- The characters of a text, whichever way it is quoted. -/
def quotedText : Reader (List Char)
  | '"' :: '"' :: '"' :: rest => multiBasicText false (dropNewline rest)
  | '"' :: rest => basicText rest
  | '\x27' :: '\x27' :: '\x27' :: rest => multiLiteralText (dropNewline rest)
  | '\x27' :: rest => literalText rest
  | _ => none

/-! ### Keys -/

/-- A key without dots. -/
def simpleKey : Reader (List Char)
  | '"' :: rest => basicText rest
  | '\x27' :: rest => literalText rest
  | cs =>
    if (cs.takeWhile isBare).isEmpty then none else some (cs.takeWhile isBare, cs.dropWhile isBare)

/-- The keys of a path, with blanks around each. -/
def keyParts (cs : List Char) : Option (List String × List Char) :=
  match simpleKey (cs.dropWhile isBlank) with
  | none => none
  | some (key, rest) =>
    match rest.dropWhile isBlank with
    | '.' :: more =>
      if more.length < cs.length then (keyParts more).map (push (String.ofList key)) else none
    | rest => some ([String.ofList key], rest)
termination_by cs.length

/-- The greatest number of keys in a path. -/
def pathLimit : Nat := 79

/-- The last key of a path and those before it. -/
structure Path where
  parents : List String
  key : String
  deriving DecidableEq, Repr

/-- A path of keys. -/
def path : Reader Path := fun cs =>
  match keyParts cs with
  | none => none
  | some (keys, rest) =>
    match keys.getLast? with
    | some key => if keys.length ≤ pathLimit then some (⟨keys.dropLast, key⟩, rest) else none
    | none => none

end DockerfileLint.Toml
