import DockerfileLint.Toml.Draft
import DockerfileLint.Toml.Scalar

/-!
# Reading TOML

A document is a sequence of lines: pairs of a dotted key and a value, headers, comments and blanks.
An array may span several lines and end in a comma; a table between braces may do neither. Values
nest at most `nestingLimit` levels.
-/

namespace DockerfileLint.Toml

/-! ### Values -/

/-- A truth value, a number or a date. -/
def scalar : Reader Value := fun cs =>
  let (spelling, rest) := word cs
  let text := String.ofList spelling
  if spelling == "true".toList then some (.boolean true, rest)
  else if spelling == "false".toList then some (.boolean false, rest)
  else match integer? spelling with
    | some n => if fitsInt64 n then some (.integer n, rest) else none
    | none =>
      if isFloat spelling then some (.float text, rest)
      else if isMoment spelling then some (.moment text, rest)
      else none

/-- The items of an array from the first one on, and what follows its end. -/
def items (item : Reader Value) (cs : List Char) : Option (List Value × List Char) :=
  match item cs with
  | none => none
  | some (v, rest) =>
    match skipTrivia false rest with
    | some (']' :: after) => some ([v], after)
    | some (',' :: more) =>
      match skipTrivia false more with
      | some (']' :: after) => some ([v], after)
      | some next => if next.length < cs.length then (items item next).map (push v) else none
      | none => none
    | _ => none
termination_by cs.length

/-- A dotted key, an equals sign and a value, with blanks after each. -/
def keyValue (item : Reader Value) : Reader (Path × Value) := fun cs =>
  match path cs with
  | some (p, '=' :: rest) =>
    match item (rest.dropWhile isBlank) with
    | some (v, rest) => some ((p, v), rest.dropWhile isBlank)
    | none => none
  | _ => none

/-- The pairs of a table between braces from the first one on, and what follows its end. -/
def inlinePairs (item : Reader Value) (cs : List Char) : Option (List (Path × Value) × List Char) :=
  match keyValue item cs with
  | some (pair, '\x7d' :: after) => some ([pair], after)
  | some (pair, ',' :: more) =>
    if more.length < cs.length then (inlinePairs item more).map (push pair) else none
  | _ => none
termination_by cs.length

/-- The greatest number of arrays and of tables between braces inside one another. -/
def nestingLimit : Nat := 79

/-- A value, given the number of levels that may still be entered. -/
def value (room : Nat) : Reader Value := fun cs =>
  match cs with
  | '"' :: _ => (quotedText cs).map fun r => (.string (String.ofList r.1), r.2)
  | '\x27' :: _ => (quotedText cs).map fun r => (.string (String.ofList r.1), r.2)
  | '[' :: rest =>
    match room with
    | room + 1 =>
      match skipTrivia false rest with
      | some (']' :: after) => some (.array [], after)
      | some next => (items (value room) next).map fun r => (.array r.1, r.2)
      | none => none
    | 0 => none
  | '\x7b' :: rest =>
    match room with
    | room + 1 =>
      match rest.dropWhile isBlank with
      | '\x7d' :: after => some (.table [], after)
      | next =>
        match inlinePairs (value room) next with
        | some (pairs, after) => (tableOfPairs? pairs).map fun t => (.table t, after)
        | none => none
    | 0 => none
  | _ => scalar cs

/-! ### Lines -/

/-- What a line says. -/
inductive Statement where
  | pair (path : Path) (v : Value)
  | header (header : Header)

/-- A header in front, up to its closing bracket. -/
def header : Reader Header
  | '[' :: '[' :: rest =>
    match path rest with
    | some (p, ']' :: ']' :: after) => some (.tables p, after)
    | _ => none
  | '[' :: rest =>
    match path rest with
    | some (p, ']' :: after) => some (.table p, after)
    | _ => none
  | _ => none

/-- A statement in front. -/
def statement : Reader Statement := fun cs =>
  match cs with
  | '[' :: _ => (header cs).map fun r => (.header r.1, r.2)
  | _ => (keyValue (value nestingLimit) cs).map fun r => (.pair r.1.1 r.1.2, r.2)

/-- What the first line says, if anything, and the lines after it. -/
def line (cs : List Char) : Option (Option Statement × List Char) :=
  match lineEnd? cs with
  | some rest => some (none, rest)
  | none =>
    match statement (cs.dropWhile isBlank) with
    | some (s, rest) => (lineEnd? rest).map fun rest => (some s, rest)
    | none => none

/-- What all lines say. -/
def statements : List Char → Option (List Statement)
  | [] => some []
  | c :: cs =>
    match line (c :: cs) with
    | some (s, rest) =>
      if rest.length ≤ cs.length then (statements rest).map (s.toList ++ ·) else none
    | none => none
termination_by cs => cs.length
decreasing_by simp only [List.length_cons]; omega

/-- The pairs before the first header, and the sections. -/
def sections : List Statement → List (Path × Value) × List Section
  | [] => ([], [])
  | .pair p v :: rest =>
    let found := sections rest
    ((p, v) :: found.1, found.2)
  | .header h :: rest =>
    let found := sections rest
    ([], ⟨h, found.1⟩ :: found.2)

/-- The characters without a byte order mark in front. -/
def dropMark : List Char → List Char
  | '\uFEFF' :: rest => rest
  | cs => cs

/-- The table of a document. -/
def ofChars? (cs : List Char) : Option Table := do
  let found ← statements (dropMark cs)
  let (pairs, sections) := sections found
  tableOfSections? pairs sections

/-- The table that a text spells. -/
def parse? (s : String) : Option Table := ofChars? s.toList

end DockerfileLint.Toml
