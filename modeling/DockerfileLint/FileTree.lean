import DockerfileLint.Text

/-!
# File trees

Files and directories as a value. A place in a tree is the list of names on the way from the root,
and the root is always a directory. A path is followed name by name from a starting place:

* every name is looked up in a directory, so a missing directory on the way and a file on the way
  are two errors;
* an empty name and `.` stay where they are, `..` goes up;
* the empty path leads nowhere, nor does one with the character NUL or with too many bytes.
-/

namespace DockerfileLint

/-- Why a file could not be read, written or run. -/
inductive FileError where
  | notFound
  | denied
  | notDirectory
  | isDirectory
  | nameTooLong
  | nulInName
  | notText
  | other (cause : String)
  deriving DecidableEq, Repr

/-- The wording of an error. -/
def FileError.message : FileError → String
  | notFound => "No such file or directory (os error 2)"
  | denied => "Permission denied (os error 13)"
  | notDirectory => "Not a directory (os error 20)"
  | isDirectory => "Is a directory (os error 21)"
  | nameTooLong => "File name too long (os error 36)"
  | nulInName => "file name contained an unexpected NUL byte"
  | notText => "stream did not contain valid UTF-8"
  | other cause => cause

/-- The names on the way from the root to a place. -/
abbrev Location := List String

/-- What stands at a place. -/
inductive Entry where
  | file (content : ByteArray)
  | directory

/-- The entries below the root. -/
structure FileTree where
  entries : List (Location × Entry) := []

namespace FileTree

/-- What stands at a place. -/
def get? (t : FileTree) (place : Location) : Option Entry :=
  if place = [] then some .directory else t.entries.lookup place

/-- The tree with an entry at a place, instead of the one that may be there. -/
def insert (t : FileTree) (place : Location) (entry : Entry) : FileTree :=
  ⟨(place, entry) :: t.entries⟩

/-- The tree without the entry at a place. -/
def erase (t : FileTree) (place : Location) : FileTree := ⟨t.entries.filter fun e => e.1 ≠ place⟩

@[simp] theorem get?_root (t : FileTree) : t.get? [] = some .directory := rfl

theorem get?_insert (t : FileTree) (place other : Location) (entry : Entry) (h : other ≠ []) :
    (t.insert place entry).get? other = if other = place then some entry else t.get? other := by
  simp only [get?, insert, h, if_false, List.lookup_cons]
  by_cases hp : other = place
  · simp [hp]
  · simp [hp, beq_eq_false_iff_ne.mpr hp]

/-! ### Paths -/

/-- The greatest number of bytes of a name. -/
def nameLimit : Nat := 255

/-- The greatest number of bytes of a path. -/
def pathLimit : Nat := 4095

/-- The place that the names lead to. -/
def walk (t : FileTree) : Location → List String → Except FileError Location
  | place, [] => .ok place
  | place, name :: rest =>
    match t.get? place with
    | none => .error .notFound
    | some (.file _) => .error .notDirectory
    | some .directory =>
      if name = "" ∨ name = "." then walk t place rest
      else if name = ".." then walk t place.dropLast rest
      else if nameLimit < name.utf8ByteSize then .error .nameTooLong
      else walk t (place ++ [name]) rest

/-- The names of a path. -/
def names (path : String) : List String := Text.splitOn path '/'

/-- The place where a path starts. -/
def start (base : Location) (path : String) : Location :=
  if Text.startsWith path "/" then [] else base

/-- The place that a path leads to from `base`; nothing has to stand there. -/
def locate (t : FileTree) (base : Location) (path : String) : Except FileError Location :=
  if Text.hasNul path then .error .nulInName
  else if pathLimit < path.utf8ByteSize then .error .nameTooLong
  else if path = "" then .error .notFound
  else t.walk (start base path) (names path)

/-- What stands at the end of a path. -/
def find (t : FileTree) (base : Location) (path : String) : Except FileError Entry :=
  match t.locate base path with
  | .error e => .error e
  | .ok place =>
    match t.get? place with
    | some entry => .ok entry
    | none => .error .notFound

/-! ### Files -/

/-- The text of the file at the end of a path. -/
def read (t : FileTree) (base : Location) (path : String) : Except FileError String :=
  match t.find base path with
  | .error e => .error e
  | .ok .directory => .error .isDirectory
  | .ok (.file content) =>
    match String.fromUTF8? content with
    | some text => .ok text
    | none => .error .notText

/-- Whether a file stands at the end of a path. -/
def isFile (t : FileTree) (base : Location) (path : String) : Bool :=
  match t.find base path with
  | .ok (.file _) => true
  | _ => false

/-- Whether anything stands at the end of a path. -/
def occupied (t : FileTree) (base : Location) (path : String) : Bool :=
  match t.find base path with
  | .ok _ => true
  | .error _ => false

/-- The tree with a text at the end of a path. Only a directory there keeps its place. -/
def write (t : FileTree) (base : Location) (path text : String) : Except FileError FileTree :=
  match t.locate base path with
  | .error e => .error e
  | .ok place =>
    match t.get? place with
    | some .directory => .error .isDirectory
    | _ => .ok (t.insert place (.file text.toUTF8))

/-! ### Building trees -/

/-- The tree with a directory at each missing place on the way along the names, and the place at
their end. -/
def grow (t : FileTree) : Location → List String → FileTree × Location
  | place, [] => (t, place)
  | place, name :: rest =>
    if name = "" ∨ name = "." then grow t place rest
    else if name = ".." then grow t place.dropLast rest
    else
      let next := place ++ [name]
      grow (if (t.get? next).isSome then t else t.insert next .directory) next rest

/-- The tree with a directory at the end of a path. -/
def addDirectory (t : FileTree) (base : Location) (path : String) : FileTree :=
  (t.grow (start base path) (names path)).1

/-- The tree with a file at the end of a path and directories on the way. -/
def addFile (t : FileTree) (base : Location) (path : String) (content : ByteArray) : FileTree :=
  let way := t.grow (start base path) (names path).dropLast
  way.1.insert (way.2 ++ (names path).getLast?.toList) (.file content)

/-- The tree without the file at the end of a path. -/
def removeFile (t : FileTree) (base : Location) (path : String) : FileTree :=
  match t.locate base path with
  | .ok place => t.erase place
  | .error _ => t

/-- The files below a place: the names from there on, and the content. -/
def filesBelow (t : FileTree) (place : Location) : List (Location × ByteArray) :=
  (t.entries.map Prod.fst).eraseDups.filterMap fun p =>
    if place.isPrefixOf p then
      match t.get? p with
      | some (.file content) => some (p.drop place.length, content)
      | _ => none
    else none

/-- Why a program cannot be started. A name without a slash is looked up in `bin`, any other from
`base`; no entry of a tree may be run. -/
def startError (t : FileTree) (base bin : Location) (program : String) : FileError :=
  match t.find (if Text.hasChar program '/' then base else bin) program with
  | .ok _ => .denied
  | .error e => e

end FileTree

end DockerfileLint
