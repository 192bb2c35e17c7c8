import DockerfileLint.Toml.Basic
import DockerfileLint.Toml.Text

/-!
# Tables in the making

The statements of a document fill its tables piece by piece. How a table came to be decides what may
be added to it:

* a table with its own header is closed to dotted keys and to a second header;
* a table that dotted keys made is open to further dotted keys, and to headers of tables inside it;
* a table that only the header of an inner table implies may still get its own header; dotted keys
  may pass through it to make a further table, and may not put a value into it;
* a value, also a table or an array written as one, is closed.
-/

namespace DockerfileLint.Toml

/-- How a table came to be. -/
inductive Origin where
  | header
  | dotted
  | implied
  deriving DecidableEq, Repr

/-- A value, or a table or an array of tables that statements may still fill. -/
inductive Draft where
  | value (v : Value)
  | table (origin : Origin) (members : List (String × Draft))
  | tables (elements : List (List (String × Draft)))

namespace Draft

/-- The members of a table in the making. -/
abbrev Members := List (String × Draft)

/-- The members with one under a key, in place of the one that may be there. -/
def put (members : Members) (key : String) (d : Draft) : Members :=
  if (members.lookup key).isSome then members.map fun m => if m.1 = key then (key, d) else m
  else members ++ [(key, d)]

/-- The members with a value under a dotted key. -/
def addPair (parents : List String) (key : String) (v : Value) (members : Members) :
    Option Members :=
  match parents with
  | [] => if (members.lookup key).isSome then none else some (members ++ [(key, .value v)])
  | parent :: parents =>
    match members.lookup parent with
    | none =>
      (addPair parents key v []).map fun inner => members ++ [(parent, .table .dotted inner)]
    | some (.table .dotted inner) =>
      (addPair parents key v inner).map fun inner => put members parent (.table .dotted inner)
    | some (.table .implied inner) =>
      if parents.isEmpty then none
      else (addPair parents key v inner).map fun inner => put members parent (.table .implied inner)
    | some (.tables elements) =>
      if parents.isEmpty then none
      else match elements.getLast? with
        | some last => (addPair parents key v last).map fun last =>
            put members parent (.tables (elements.dropLast ++ [last]))
        | none => none
    | some _ => none

/-- The members with several values under dotted keys. -/
def addPairs (pairs : List (Path × Value)) (members : Members) : Option Members :=
  pairs.foldlM (fun members pair => addPair pair.1.parents pair.1.key pair.2 members) members

/-- The members with what `define` makes of the entry at the end of a path. Tables on the way that
are not there yet are implied; an array of tables stands for its last element. -/
def defineAt (parents : List String) (key : String) (define : Option Draft → Option Draft)
    (members : Members) :
    Option Members :=
  match parents with
  | [] => (define (members.lookup key)).map (put members key)
  | parent :: parents =>
    match members.lookup parent with
    | none =>
      (defineAt parents key define []).map fun inner => members ++ [(parent, .table .implied inner)]
    | some (.table origin inner) =>
      (defineAt parents key define inner).map fun inner => put members parent (.table origin inner)
    | some (.tables elements) =>
      match elements.getLast? with
      | some last => (defineAt parents key define last).map fun last =>
          put members parent (.tables (elements.dropLast ++ [last]))
      | none => none
    | some (.value _) => none

mutual

/-- The finished value. -/
def finish : Draft → Value
  | .value v => v
  | .table _ members => .table (finishMembers members)
  | .tables elements => .array (finishElements elements)

/-- The finished members of a table. -/
def finishMembers : List (String × Draft) → List (String × Value)
  | [] => []
  | (key, d) :: rest => (key, finish d) :: finishMembers rest

/-- The finished elements of an array of tables. -/
def finishElements : List (List (String × Draft)) → List Value
  | [] => []
  | members :: rest => .table (finishMembers members) :: finishElements rest

end

end Draft

/-- What the statement of a header opens. -/
inductive Header where
  | table (path : Path)
  | tables (path : Path)

/-- A header and the pairs after it. -/
structure Section where
  header : Header
  pairs : List (Path × Value)

namespace Draft

/-- The table of a header, unless it is closed already. -/
def openTable (pairs : List (Path × Value)) : Option Draft → Option Draft
  | none => (addPairs pairs []).map (.table .header)
  | some (.table .implied members) => (addPairs pairs members).map (.table .header)
  | some _ => none

/-- The array of tables with one more table. -/
def openTables (pairs : List (Path × Value)) : Option Draft → Option Draft
  | none => (addPairs pairs []).map fun element => .tables [element]
  | some (.tables elements) =>
    (addPairs pairs []).map fun element => .tables (elements ++ [element])
  | some _ => none

/-- The members after a section. -/
def addSection (members : Members) (s : Section) : Option Members :=
  match s.header with
  | .table path => defineAt path.parents path.key (openTable s.pairs) members
  | .tables path => defineAt path.parents path.key (openTables s.pairs) members

end Draft

/-- The table that pairs of dotted keys and values make. -/
def tableOfPairs? (pairs : List (Path × Value)) : Option Table :=
  (Draft.addPairs pairs []).map Draft.finishMembers

/-- The table that the pairs before the first header and the sections make. -/
def tableOfSections? (pairs : List (Path × Value)) (sections : List Section) : Option Table := do
  let root ← Draft.addPairs pairs []
  let root ← sections.foldlM Draft.addSection root
  pure (Draft.finishMembers root)

end DockerfileLint.Toml
