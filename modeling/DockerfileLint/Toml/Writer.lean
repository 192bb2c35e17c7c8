import DockerfileLint.Hex
import DockerfileLint.Toml.Basic

/-!
# Writing TOML

Texts are written between quotes on one line. A quote and a backslash get a backslash in front, and
control characters are written by their code.
-/

namespace DockerfileLint.Toml

/-- A character inside quotes. -/
def escape (c : Char) : List Char :=
  if c = '"' then ['\\', '"']
  else if c = '\\' then ['\\', '\\']
  else if c.toNat < 32 ∨ c.toNat = 127 then
    ['\\', 'u', '0', '0', Hex.digit (c.toNat / 16), Hex.digit (c.toNat % 16)]
  else [c]

/-- A text between quotes. -/
def quote (s : String) : List Char := '"' :: (s.toList.flatMap escape ++ ['"'])

/-- Pieces with a comma and a blank between them. -/
def commaSeparated : List (List Char) → List Char
  | [] => []
  | [x] => x
  | x :: y :: rest => x ++ ',' :: ' ' :: commaSeparated (y :: rest)

/-- An array of texts on one line. -/
def quoteAll (items : List String) : List Char := '[' :: (commaSeparated (items.map quote) ++ [']'])

/-- A truth value. -/
def truth (b : Bool) : List Char := if b then "true".toList else "false".toList

/-- A line that sets a key. -/
def setting (key : String) (value : List Char) : List Char :=
  key.toList ++ (" = ".toList ++ (value ++ ['\n']))

end DockerfileLint.Toml
