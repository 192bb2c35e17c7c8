/-!
# JSON documents

A document tree keeps the members of an object in order, repeated ones included. Two leaves carry
less than their spelling. A text may spell half of a surrogate pair, which no string holds: its
content is then `none`. A number that is written with a fraction or an exponent, or as `-0`, is kept
by its spelling and is no integer.
-/

namespace DockerfileLint

/-- A JSON document. -/
inductive Json where
  | null
  | bool (b : Bool)
  | integer (n : Int)
  | decimal (spelling : List Char)
  | text (content : Option String)
  | array (items : List Json)
  | object (members : List (Option String × Json))

namespace Json

/-- The text of a string. -/
def str (s : String) : Json := .text (some s)

/-- The object with the given members. -/
def obj (members : List (String × Json)) : Json := .object (members.map fun m => (some m.1, m.2))

/-- The array of texts. -/
def strs (items : List String) : Json := .array (items.map str)

/-- A natural number. -/
def nat (n : Nat) : Json := .integer n

/-- The value of the first member with a name. -/
def member? (name : String) : Json → Option Json
  | .object members => (members.find? fun m => m.1 == some name).map Prod.snd
  | _ => none

end Json

end DockerfileLint
