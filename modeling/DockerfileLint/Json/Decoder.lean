import DockerfileLint.Json.Reader

/-!
# Decoding JSON

A decoder reads a value of the program from a document. It is told how many more arrays and objects
may be entered: documents nest at most `nestingLimit` levels, and a value that is skipped does not
count.

A record is written as an object or as the array of its fields. In an object known fields come in
any order and at most once, and unknown ones are skipped; in an array trailing fields may be missing
and none may be added.
-/

namespace DockerfileLint.Json

/-- The greatest number of arrays and objects inside one another. -/
def nestingLimit : Nat := 127

/-- A reader of documents, given the number of levels that may still be entered. -/
abbrev Decoder (α : Type) := Nat → Json → Option α

namespace Decoder

/-- A text. -/
def string : Decoder String
  | _, .text (some s) => some s
  | _, _ => none

/-- A truth value. -/
def bool : Decoder Bool
  | _, .bool b => some b
  | _, _ => none

/-- An integer from `low` up to, but without, `high`. -/
def integer (low high : Int) : Decoder Int
  | _, .integer n => if low ≤ n ∧ n < high then some n else none
  | _, _ => none

/-- An integer of 64 bits with sign. -/
def int64 : Decoder Int64 := fun room v =>
  (integer (-9223372036854775808) 9223372036854775808 room v).map Int64.ofInt

/-- An integer of 32 bits without sign. -/
def uint32 : Decoder UInt32 := fun room v =>
  (integer 0 4294967296 room v).map fun n => UInt32.ofNat n.toNat

/-- An integer of 64 bits without sign. -/
def uint64 : Decoder UInt64 := fun room v =>
  (integer 0 18446744073709551616 room v).map fun n => UInt64.ofNat n.toNat

/-- An array of like values. -/
def list {α : Type} (item : Decoder α) : Decoder (List α)
  | room + 1, .array items => items.mapM (item room)
  | _, _ => none

/-- An array of two texts. -/
def pair : Decoder (String × String)
  | room + 1, .array [a, b] => do pure (← string room a, ← string room b)
  | _, _ => none

/-- The value of a member. -/
def lookup (name : String) (members : List (Option String × Json)) : Option Json :=
  (members.find? fun m => m.1 == some name).map Prod.snd

/-- The values of the named fields of a record, each as far as it is given. -/
def slots (names : List String) : Json → Option (List (Option Json))
  | .object members =>
    if members.all (fun m => m.1.isSome) &&
        names.all (fun name => decide (members.countP (fun m => m.1 == some name) ≤ 1)) then
      some (names.map fun name => lookup name members)
    else none
  | .array items =>
    if items.length ≤ names.length then
      some (items.map some ++ List.replicate (names.length - items.length) none)
    else none
  | _ => none

/-- A record with the named fields. -/
def record {α : Type} (names : List String) (build : Nat → List (Option Json) → Option α) :
    Decoder α
  | room + 1, v => (slots names v).bind (build room)
  | 0, _ => none

/-- A field that has to be there. -/
def required {α : Type} (field : Decoder α) (room : Nat) : Option Json → Option α
  | some v => field room v
  | none => none

/-- A field that may be missing or null. -/
def optional {α : Type} (field : Decoder α) (room : Nat) : Option Json → Option (Option α)
  | none => some none
  | some .null => some none
  | some v => (field room v).map some

/-- One of several names: its text, or an object from it to null. -/
def choice {α : Type} (ofName? : String → Option α) : Decoder α
  | _, .text (some s) => ofName? s
  | _ + 1, .object [(some s, .null)] => ofName? s
  | _, _ => none

/-- Decodes a whole document. -/
def decode? {α : Type} (d : Decoder α) (v : Json) : Option α := d nestingLimit v

/-- Decodes the document that a text spells. -/
def parse? {α : Type} (d : Decoder α) (s : String) : Option α := (Json.parse? s).bind d.decode?

end Decoder

end DockerfileLint.Json
