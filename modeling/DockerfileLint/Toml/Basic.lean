/-!
# TOML documents

The values of a TOML document and the table that holds them. Floating-point numbers and dates are
kept by their spelling: a configuration has no use for them, but a document may hold them.
-/

namespace DockerfileLint.Toml

/-- A value of a document. -/
inductive Value where
  | string (s : String)
  | integer (n : Int)
  | float (spelling : String)
  | boolean (b : Bool)
  | moment (spelling : String)
  | array (items : List Value)
  | table (members : List (String × Value))

/-- The members of a table, in order. -/
abbrev Table := List (String × Value)

/-! ### Equality -/

namespace Value

mutual

/-- Whether two values are the same. -/
def same : Value → Value → Bool
  | .string s, .string t => s == t
  | .integer m, .integer n => m == n
  | .float s, .float t => s == t
  | .boolean a, .boolean b => a == b
  | .moment s, .moment t => s == t
  | .array vs, .array ws => sameItems vs ws
  | .table vs, .table ws => sameMembers vs ws
  | _, _ => false

/-- Whether two arrays have the same items. -/
def sameItems : List Value → List Value → Bool
  | [], [] => true
  | v :: vs, w :: ws => v.same w && sameItems vs ws
  | _, _ => false

/-- Whether two tables have the same members, in the same order. -/
def sameMembers : List (String × Value) → List (String × Value) → Bool
  | [], [] => true
  | (k, v) :: vs, (l, w) :: ws => k == l && v.same w && sameMembers vs ws
  | _, _ => false

end

mutual

theorem same_iff : (v w : Value) → (v.same w = true ↔ v = w)
  | .string _, w | .integer _, w | .float _, w | .boolean _, w | .moment _, w => by
    cases w <;> simp [same]
  | .array vs, w => by cases w <;> simp [same, sameItems_iff vs]
  | .table vs, w => by cases w <;> simp [same, sameMembers_iff vs]

theorem sameItems_iff : (vs ws : List Value) → (sameItems vs ws = true ↔ vs = ws)
  | [], ws => by cases ws <;> simp [sameItems]
  | v :: vs, ws => by cases ws <;> simp [sameItems, same_iff v, sameItems_iff vs]

theorem sameMembers_iff : (vs ws : List (String × Value)) → (sameMembers vs ws = true ↔ vs = ws)
  | [], ws => by cases ws <;> simp [sameMembers]
  | (_, v) :: vs, [] => by simp [sameMembers]
  | (_, v) :: vs, (_, w) :: ws => by simp [sameMembers, same_iff v, sameMembers_iff vs]

end

instance : DecidableEq Value := fun v w => decidable_of_iff _ (v.same_iff w)

end Value

end DockerfileLint.Toml
