import DockerfileLint.Catalog

/-!
# Choosing rules by key

A selection is a text of keys with commas between them. Each key is the code or the name of a rule;
a key that stands twice selects its rule twice, and one that no rule answers to selects nothing.
-/

namespace DockerfileLint.Catalog

/-- The keys of a selection: the pieces between the commas, trimmed, without the empty ones. -/
def keys (selection : String) : List String :=
  ((Text.splitOn selection ',').map Text.trim).filter fun key => key ≠ ""

/-- The rules of a selection, in the order of its keys. -/
def select (selection : String) : List Rule := (keys selection).filterMap find?

/-- The keys of a selection that no rule answers to. -/
def unknownKeys (selection : String) : List String :=
  (keys selection).filter fun key => (find? key).isNone

end DockerfileLint.Catalog
