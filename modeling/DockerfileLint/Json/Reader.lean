import DockerfileLint.Json.Token

/-!
# Reading JSON

A document is read from its tokens with a stack of the arrays and objects that are still open. One
token makes one step, so the reader is a fold over the tokens and nesting is limited by nothing but
the text.
-/

namespace DockerfileLint.Json

/-- An open array or object with its parts so far, the last one first. An open object also has the
key whose value is being read. -/
inductive Frame where
  | array (items : List Json)
  | object (members : List (Option String × Json)) (key : Option String)

/-- What may come next. -/
inductive State where
  /-- A value. -/
  | value (stack : List Frame)
  /-- The first item of an array, or its end. -/
  | firstItem (stack : List Frame)
  /-- The first key of an object, or its end. -/
  | firstKey (stack : List Frame)
  /-- A further key of an object. -/
  | key (stack : List Frame) (members : List (Option String × Json))
  /-- The colon after a key. -/
  | colon (stack : List Frame) (members : List (Option String × Json)) (key : Option String)
  /-- What follows a complete value. -/
  | done (stack : List Frame) (v : Json)

namespace State

/-- The state after the first token of a value. -/
def start (stack : List Frame) : Token → Option State
  | .openArray => some (.firstItem stack)
  | .openObject => some (.firstKey stack)
  | .null => some (.done stack .null)
  | .bool b => some (.done stack (.bool b))
  | .integer n => some (.done stack (.integer n))
  | .decimal spelling => some (.done stack (.decimal spelling))
  | .text content => some (.done stack (.text content))
  | _ => none

/-- The state after one more token. -/
def step : State → Token → Option State
  | .value stack, t => start stack t
  | .firstItem stack, .closeArray => some (.done stack (.array []))
  | .firstItem stack, t => start (.array [] :: stack) t
  | .firstKey stack, .closeObject => some (.done stack (.object []))
  | .firstKey stack, .text k => some (.colon stack [] k)
  | .key stack members, .text k => some (.colon stack members k)
  | .colon stack members k, .colon => some (.value (.object members k :: stack))
  | .done (.array items :: stack) v, .comma => some (.value (.array (v :: items) :: stack))
  | .done (.array items :: stack) v, .closeArray => some (.done stack (.array (v :: items).reverse))
  | .done (.object members k :: stack) v, .comma => some (.key stack ((k, v) :: members))
  | .done (.object members k :: stack) v, .closeObject =>
    some (.done stack (.object ((k, v) :: members).reverse))
  | _, _ => none

/-- The state after all tokens of a list. -/
def run (s : State) (tokens : List Token) : Option State := tokens.foldlM step s

end State

/-- The document of a list of tokens. -/
def ofTokens? (tokens : List Token) : Option Json :=
  match State.run (.value []) tokens with
  | some (.done [] v) => some v
  | _ => none

/-- The document that the characters spell. -/
def ofChars? (cs : List Char) : Option Json := (Token.lex cs).bind ofTokens?

/-- The document that a text spells. -/
def parse? (s : String) : Option Json := ofChars? s.toList

end DockerfileLint.Json
