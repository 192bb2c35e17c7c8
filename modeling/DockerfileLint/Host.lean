import DockerfileLint.Analyzer.Process
import DockerfileLint.FileTree
import DockerfileLint.Log

/-!
# Hosts

What the command line needs from the machine it runs on: files, programs and a log. The operations
act in any monad, so the same command line runs on the machine itself and on a `Workspace`, a
machine that is a value.
-/

namespace DockerfileLint

/-- The machine as the command line sees it. -/
structure Host (m : Type → Type) where
  readFile : String → m (Except FileError String)
  isFile : String → m Bool
  occupied : String → m Bool
  writeFile : String → String → m (Except FileError Unit)
  run : String → List String → String → m Outcome
  log : Level → String → m Unit

namespace Host

variable {m : Type → Type} [Monad m]

/-- The host that keeps debug records only on demand. -/
def verbose (h : Host m) (wanted : Bool) : Host m :=
  if wanted then h
  else { h with log := fun level text => if level = .debug then pure () else h.log level text }

/-- A debug record. -/
def debug (h : Host m) (text : String) : m Unit := h.log .debug (Log.printable text)

/-- An information record. -/
def info (h : Host m) (text : String) : m Unit := h.log .info (Log.printable text)

/-- A warning record. -/
def warn (h : Host m) (text : String) : m Unit := h.log .warn (Log.printable text)

end Host

/-! ### Machines as values -/

/-- A run of a program. -/
structure Call where
  program : String
  arguments : List String
  input : String
  deriving DecidableEq, Repr

/-- The programs that can be started: what the next call of one gives after the calls so far. -/
abbrev Programs := List Call → Call → Option Outcome

/-- A machine: its files, the working directory, the directory of the programs, the log and the
calls so far. -/
structure Workspace where
  files : FileTree
  cwd : Location
  bin : Location
  log : List (Level × String) := []
  calls : List Call := []

namespace Workspace

/-- The outcome of a call, and the machine after it. Only a call that was started is remembered. -/
def call (programs : Programs) (c : Call) (w : Workspace) : Outcome × Workspace :=
  match programs w.calls c with
  | some outcome => (outcome, { w with calls := w.calls ++ [c] })
  | none => (.notStarted (w.files.startError w.cwd w.bin c.program).message, w)

/-- The machine after a file was written, or as it was. -/
def writeFile (path text : String) (w : Workspace) : Except FileError Unit × Workspace :=
  match w.files.write w.cwd path text with
  | .ok files => (.ok (), { w with files })
  | .error e => (.error e, w)

/-- The machine as a host. -/
def host (programs : Programs) : Host (StateM Workspace) where
  readFile path := do pure ((← get).files.read (← get).cwd path)
  isFile path := do pure ((← get).files.isFile (← get).cwd path)
  occupied path := do pure ((← get).files.occupied (← get).cwd path)
  writeFile path text := modifyGet (writeFile path text)
  run program arguments input := modifyGet (call programs ⟨program, arguments, input⟩)
  log level text := modify fun w => { w with log := w.log ++ [(level, text)] }

end Workspace

end DockerfileLint
