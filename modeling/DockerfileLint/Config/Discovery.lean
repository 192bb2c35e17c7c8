import DockerfileLint.Config.Reader
import DockerfileLint.Host

/-!
# Finding the configuration

A directory is searched for `docklint.toml` and `.docklint.toml`, in this order; after that
`config.toml` in a global directory counts. Only files count, and the first one found decides: when
it cannot be read, nothing else is tried. Without any file the default configuration holds.
-/

namespace DockerfileLint

/-- Why a configuration could not be loaded. -/
inductive ConfigError where
  | unreadable (path : String) (cause : FileError)
  | malformed
  deriving DecidableEq, Repr

/-- The wording of an error; a malformed file is told by the fact alone. -/
def ConfigError.message : ConfigError → String
  | unreadable path cause => "Failed to read config file " ++ path ++ ": " ++ cause.message
  | malformed => "Failed to parse config"

/-- The path of a name in a directory. -/
def joinPath (dir name : String) : String :=
  if dir = "" ∨ Text.endsWith dir "/" then dir ++ name else dir ++ "/" ++ name

namespace Config

/-- The name of the configuration that a project starts with. -/
def projectFile : String := "docklint.toml"

/-- The names of a configuration in a directory, the first one preferred. -/
def localNames : List String := [projectFile, ".docklint.toml"]

/-- The name of a configuration in a global directory. -/
def globalName : String := "config.toml"

variable {m : Type → Type} [Monad m]

/-- The configuration in a file. -/
def ofFile (host : Host m) (path : String) : m (Except ConfigError Config) := do
  match ← host.readFile path with
  | .error cause => pure (.error (.unreadable path cause))
  | .ok text =>
    match Config.parse? text with
    | some config => pure (.ok config)
    | none => pure (.error .malformed)

/-- The first path at which there is a file. -/
def firstFile (host : Host m) : List String → m (Option String)
  | [] => pure none
  | path :: rest => do
    if ← host.isFile path then pure (some path) else firstFile host rest

/-- The path of the configuration in a directory. -/
def findLocal (host : Host m) (dir : String) : m (Option String) :=
  firstFile host (localNames.map (joinPath dir))

/-- The path of the configuration in a global directory. -/
def findGlobal (host : Host m) (dir : Option String) : m (Option String) :=
  firstFile host (dir.toList.map fun d => joinPath d globalName)

/-- The configuration that holds in a directory. The global file is looked for first, but it counts
only where the directory has none. -/
def discover (host : Host m) (dir : String) (global : Option String) :
    m (Except ConfigError Config) := do
  let fallback ← findGlobal host global
  match ← findLocal host dir with
  | some path =>
    host.debug ("Loading config from " ++ path)
    ofFile host path
  | none =>
    match fallback with
    | some path =>
      host.info ("Using global config: " ++ path)
      ofFile host path
    | none => pure (.ok {})

end Config

end DockerfileLint
