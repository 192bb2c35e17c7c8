import DockerfileLint.Json.Token

/-!
# Writing JSON

A document is written as its tokens, either one after the other (`compact`) or one member to a line
and two blanks to a level (`pretty`).
-/

namespace DockerfileLint.Json

mutual

/-- The tokens of a document. -/
def tokens : Json → List Token
  | .null => [.null]
  | .bool b => [.bool b]
  | .integer n => [.integer n]
  | .decimal spelling => [.decimal spelling]
  | .text content => [.text content]
  | .array [] => [.openArray, .closeArray]
  | .array (v :: rest) => .openArray :: (tokens v ++ (itemTokens rest ++ [.closeArray]))
  | .object [] => [.openObject, .closeObject]
  | .object ((k, v) :: rest) =>
    .openObject :: .text k :: .colon :: (tokens v ++ (memberTokens rest ++ [.closeObject]))

/-- The tokens of the further items of an array. -/
def itemTokens : List Json → List Token
  | [] => []
  | v :: rest => .comma :: (tokens v ++ itemTokens rest)

/-- The tokens of the further members of an object. -/
def memberTokens : List (Option String × Json) → List Token
  | [] => []
  | (k, v) :: rest => .comma :: .text k :: .colon :: (tokens v ++ memberTokens rest)

end

/-- The document without blanks. -/
def compact (v : Json) : List Char := v.tokens.flatMap Token.spell

/-- The end of a line and the blanks that start the next one. -/
def newline (depth : Nat) : List Char := '\n' :: List.replicate (2 * depth) ' '

/-- Tokens with each part of an array or object on a line of its own. -/
def layout : Nat → List Token → List Char
  | _, [] => []
  | d, .openArray :: .closeArray :: ts => '[' :: ']' :: layout d ts
  | d, .openObject :: .closeObject :: ts => '\x7b' :: '\x7d' :: layout d ts
  | d, .openArray :: ts => '[' :: (newline (d + 1) ++ layout (d + 1) ts)
  | d, .openObject :: ts => '\x7b' :: (newline (d + 1) ++ layout (d + 1) ts)
  | d, .closeArray :: ts => newline (d - 1) ++ ']' :: layout (d - 1) ts
  | d, .closeObject :: ts => newline (d - 1) ++ '\x7d' :: layout (d - 1) ts
  | d, .comma :: ts => ',' :: (newline d ++ layout d ts)
  | d, .colon :: ts => ':' :: ' ' :: layout d ts
  | d, t :: ts => t.spell ++ layout d ts

/-- The document with each part on a line of its own. -/
def pretty (v : Json) : List Char := layout 0 v.tokens

end DockerfileLint.Json
