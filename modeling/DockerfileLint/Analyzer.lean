import DockerfileLint.Check
import DockerfileLint.Decimal
import DockerfileLint.Instruction

/-!
# The shell analyzer

A shell analyzer answers a command with diagnostics or with an error. It may act in any monad, so
that a pure function, a recorder of its calls and a program on the machine are analyzers alike.
`Analyzer.checks` hands it the `RUN` commands of a script in order and stops at the first error.
-/

namespace DockerfileLint

/-- A remark of the analyzer on a command. -/
structure Diagnostic where
  code : UInt32
  severity : Severity
  message : String
  deriving DecidableEq, Repr

/-- The metadata of a remark; its code has the letters `SC` in front. -/
def Diagnostic.metadata (d : Diagnostic) : Metadata :=
  ⟨"SC" ++ Decimal.text d.code.toNat, d.severity, d.message⟩

/-- Why a command could not be analyzed. -/
inductive AnalyzerError where
  | spawn (program cause : String)
  | io (cause : String)
  | failed (status stderr : String)
  | malformed (reason : String)
  deriving DecidableEq, Repr

/-- The wording of an error. -/
def AnalyzerError.message : AnalyzerError → String
  | spawn program cause => "failed to run " ++ program ++ ": " ++ cause
  | io cause => "IO error talking to shell analyzer: " ++ cause
  | failed status stderr => "shell analyzer exited with " ++ status ++ ": " ++ stderr
  | malformed reason => "malformed shell analyzer output: " ++ reason

/-- The analyzer failed on the command at a place. -/
structure LintError where
  file : String
  line : Int64
  cause : AnalyzerError
  deriving DecidableEq, Repr

/-- The wording of the failure. -/
def LintError.message (e : LintError) : String :=
  "shell analyzer failed on " ++ e.file ++ ":" ++ Decimal.text e.line.toInt

/-- What to do about the failure. -/
def LintError.help : String :=
  "check that shellcheck is installed, or disable it with --no-shellcheck"

/-- A command of a script with its place. -/
structure ShellCommand where
  source : String
  line : Int64
  text : String
  deriving DecidableEq, Repr

/-- The commands of a script, also under `ONBUILD`: the words of each `RUN` with single blanks
between them. -/
def shellCommands (script : Script) : List ShellCommand :=
  script.filterMap fun p =>
    p.instruction.runArgs?.map fun args => ⟨p.source, p.line, " ".intercalate args⟩

/-- A shell analyzer, and what is done just before it gets a command. -/
structure Analyzer (m : Type → Type) where
  analyze : String → m (Except AnalyzerError (List Diagnostic))
  announce : ShellCommand → m Unit

/-- The first occurrences of the elements, in order. -/
def distinct {α : Type} [DecidableEq α] : List α → List α
  | [] => []
  | x :: xs => x :: (distinct xs).filter fun y => y ≠ x

/-- The findings at a command, one for each distinct remark. -/
def ShellCommand.findings (c : ShellCommand) (ds : List Diagnostic) : List Check :=
  (distinct (ds.map Diagnostic.metadata)).map fun metadata => ⟨metadata, c.source, c.line, false⟩

namespace Analyzer

variable {m : Type → Type} [Monad m]

/-- The analyzer that is not announced. -/
def silent (analyze : String → m (Except AnalyzerError (List Diagnostic))) : Analyzer m where
  analyze := analyze
  announce _ := pure ()

/-- The findings at the commands, in order, up to the first error. -/
def findings (a : Analyzer m) : List ShellCommand → m (Except LintError (List Check))
  | [] => pure (.ok [])
  | c :: rest => do
    a.announce c
    match ← a.analyze c.text with
    | .error cause => pure (.error ⟨c.source, c.line, cause⟩)
    | .ok ds =>
      match ← findings a rest with
      | .error e => pure (.error e)
      | .ok more => pure (.ok (c.findings ds ++ more))

/-- The findings at the commands of a script. -/
def checks (a : Analyzer m) (script : Script) : m (Except LintError (List Check)) :=
  a.findings (shellCommands script)

end Analyzer

end DockerfileLint
