import DockerfileLint.Program

/-!
# The executable

The program on the machine itself. Files are read and written where they are, records go to standard
error, and no program is ever started: a configuration that asks for the shell analyzer gets an
analyzer that could not be started.
-/

namespace DockerfileLint.Main

/-- What an error of the machine means. -/
def fileError (e : IO.Error) : FileError :=
  match e with
  | .noFileOrDirectory .. => .notFound
  | .permissionDenied .. => .denied
  | .inappropriateType _ code _ =>
    if code = 20 then .notDirectory else if code = 21 then .isDirectory else .other (toString e)
  | _ => .other (toString e)

/-- The text of a file of the machine. -/
def readFile (path : String) : IO (Except FileError String) := do
  try
    let content ← IO.FS.readBinFile path
    match String.fromUTF8? content with
    | some text => pure (.ok text)
    | none => pure (.error .notText)
  catch e => pure (.error (fileError e))

/-- Writes a file of the machine. -/
def writeFile (path text : String) : IO (Except FileError Unit) := do
  try
    IO.FS.writeFile path text
    pure (.ok ())
  catch e => pure (.error (fileError e))

/-- The machine as a host. A path that cannot be opened for want of permission still counts as a
file. -/
def host : Host IO where
  readFile := readFile
  isFile path := do
    match ← readFile path with
    | .ok _ => pure true
    | .error e => pure (e = .notText ∨ e = .denied)
  occupied path := do
    match ← readFile path with
    | .ok _ => pure true
    | .error e => pure (e ≠ .notFound ∧ e ≠ .notDirectory)
  writeFile := writeFile
  run _ _ _ := pure (.notStarted "programs cannot be started here")
  log level text := do (← IO.getStderr).putStrLn (level.label ++ " " ++ text)

/-- The surroundings of the program. -/
def environment : IO Program.Environment := do
  pure {
    cwd := (← IO.currentDir).toString
    config := ← IO.getEnv "DOCKLINT_CONFIG"
    configDir := ← IO.getEnv "DOCKLINT_CONFIG_DIR"
    home := ← IO.getEnv "HOME" }

/-- What goes to standard error at the end of a run. -/
def complaint : Program.Ending → String
  | .failure cause => "Error: " ++ cause.message ++ "\n"
  | .lintFailure cause =>
    "Error: " ++ cause.message ++ ": " ++ cause.cause.message ++ "\n  help: " ++
      LintError.help ++ "\n"
  | .usage => "Usage: docklint [OPTIONS] <COMMAND>\n\nFor more information, try --help.\n"
  | .clean | .findings => ""

end DockerfileLint.Main

open DockerfileLint in
/-- Runs the program and exits with its code. -/
def main (words : List String) : IO UInt32 := do
  let reply ← Program.run Main.host (← Main.environment) words
  (← IO.getStdout).putStr reply.stdout
  (← IO.getStderr).putStr (Main.complaint reply.ending)
  pure reply.ending.exitCode.toUInt32
