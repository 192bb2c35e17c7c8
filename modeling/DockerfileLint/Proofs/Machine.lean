import DockerfileLint.Host

/-!
# Machines that remember

A `Machine` is given by its answers, and each answer may depend on everything that was asked before:
a file may change between two readings, and a program may answer the same call differently. As a
host, a machine has the requests so far as its state, so that a run leaves behind what it asked for,
in order. `filesRead` and `programInputs` are the two parts of that list that later statements are
about.
-/

namespace DockerfileLint

/-- What a command asks of its host. -/
inductive Request where
  | readFile (path : String)
  | isFile (path : String)
  | occupied (path : String)
  | writeFile (path text : String)
  | run (call : Call)
  deriving DecidableEq, Repr

/-- A machine: its answer to each request after the requests so far. -/
structure Machine where
  readFile : List Request → String → Except FileError String
  isFile : List Request → String → Bool
  occupied : List Request → String → Bool
  writeFile : List Request → String → String → Except FileError Unit
  run : List Request → Call → Outcome

/-- The machine as a host. It keeps no log. -/
def Machine.host (w : Machine) : Host (StateM (List Request)) where
  readFile path := modifyGet fun asked => (w.readFile asked path, asked ++ [.readFile path])
  isFile path := modifyGet fun asked => (w.isFile asked path, asked ++ [.isFile path])
  occupied path := modifyGet fun asked => (w.occupied asked path, asked ++ [.occupied path])
  writeFile path text :=
    modifyGet fun asked => (w.writeFile asked path text, asked ++ [.writeFile path text])
  run program arguments input := modifyGet fun asked =>
    (w.run asked ⟨program, arguments, input⟩, asked ++ [.run ⟨program, arguments, input⟩])
  log _ _ := pure ()

/-! ### What was asked for -/

/-- The files that were read, in order. -/
def filesRead (asked : List Request) : List String :=
  asked.filterMap fun
    | .readFile path => some path
    | _ => none

/-- What the programs that were run got on their standard input, in order. -/
def programInputs (asked : List Request) : List String :=
  asked.filterMap fun
    | .run call => some call.input
    | _ => none

@[simp] theorem filesRead_append (xs ys : List Request) :
    filesRead (xs ++ ys) = filesRead xs ++ filesRead ys :=
  List.filterMap_append

@[simp] theorem programInputs_append (xs ys : List Request) :
    programInputs (xs ++ ys) = programInputs xs ++ programInputs ys :=
  List.filterMap_append

@[simp] theorem filesRead_readFile (path : String) : filesRead [.readFile path] = [path] := rfl

@[simp] theorem programInputs_readFile (path : String) : programInputs [.readFile path] = [] := rfl

@[simp] theorem filesRead_map_run (calls : List Call) : filesRead (calls.map .run) = [] := by
  induction calls with
  | nil => rfl
  | cons call calls ih => exact ih

@[simp] theorem programInputs_map_run (calls : List Call) :
    programInputs (calls.map .run) = calls.map Call.input := by
  induction calls with
  | nil => rfl
  | cons call calls ih => exact congrArg (call.input :: ·) ih

end DockerfileLint
