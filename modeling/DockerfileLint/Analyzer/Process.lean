import DockerfileLint.Analyzer
import DockerfileLint.Config
import DockerfileLint.Document.Result
import DockerfileLint.Utf8

/-!
# The analyzer as a program

The shell analyzer is a program that gets a command on its standard input and writes its remarks as
JSON. What came of running it is a value, and `AnalyzerCommand.judge` tells what that value means:

* a program that could not be started or waited for is an error;
* any exit status but 0 and 1 is a failure, whatever was written;
* otherwise the report counts, all of it or none.
-/

namespace DockerfileLint

/-- How the analyzer is called. -/
structure AnalyzerCommand where
  program : String := "shellcheck"
  shell : String := "sh"
  exclude : List String := []
  deriving DecidableEq, Repr

/-- The call that a configuration asks for. -/
def AnalyzerCommand.ofSettings (s : AnalyzerSettings) : AnalyzerCommand :=
  ⟨s.program, s.shell, s.exclude⟩

/-- The arguments of the call. -/
def AnalyzerCommand.arguments (c : AnalyzerCommand) : List String :=
  ["--format=json", "--shell=" ++ c.shell] ++
    (if c.exclude.isEmpty then [] else ["--exclude=" ++ ",".intercalate c.exclude]) ++ ["-"]

/-- How a program ended: by itself with a code, or by a signal, which may have left an image of its
memory behind. -/
inductive ExitStatus where
  | exited (code : Nat)
  | killed (signal : Nat) (dumped : Bool := false)
  deriving DecidableEq, Repr

/-- The names of the signals, from number one on. -/
def signalNames : List String :=
  ["SIGHUP", "SIGINT", "SIGQUIT", "SIGILL", "SIGTRAP", "SIGABRT", "SIGBUS", "SIGFPE", "SIGKILL",
    "SIGUSR1", "SIGSEGV", "SIGUSR2", "SIGPIPE", "SIGALRM", "SIGTERM", "SIGSTKFLT", "SIGCHLD",
    "SIGCONT", "SIGSTOP", "SIGTSTP", "SIGTTIN",
    "SIGTTOU", "SIGURG", "SIGXCPU", "SIGXFSZ", "SIGVTALRM", "SIGPROF", "SIGWINCH", "SIGIO",
    "SIGPWR", "SIGSYS"]

/-- The name of a signal in brackets, and nothing for a signal without a name. -/
def signalNote : Nat → String
  | 0 => ""
  | n + 1 =>
    match signalNames[n]? with
    | some name => " (" ++ name ++ ")"
    | none => ""

/-- The wording of an exit status. -/
def ExitStatus.describe : ExitStatus → String
  | exited code => "exit status: " ++ Decimal.text code
  | killed signal dumped =>
    "signal: " ++ Decimal.text signal ++ signalNote signal ++
      if dumped then " (core dumped)" else ""

/-- What a program left behind. -/
structure Finished where
  status : ExitStatus
  stdout : List UInt8
  stderr : List UInt8
  deriving DecidableEq, Repr

/-- What came of running a program on an input. -/
inductive Outcome where
  | notStarted (cause : String)
  | ran (writing : Except String Unit) (waiting : Except String Finished)

/-! ### The report -/

/-- A remark as the report has it. -/
structure Comment where
  code : UInt32
  level : String
  message : String
  deriving DecidableEq, Repr

/-- Reads a remark. -/
def Comment.decoder : Json.Decoder Comment :=
  Json.Decoder.record ["code", "level", "message"] fun room fields =>
    match fields with
    | [code, level, message] => do
      pure ⟨← Json.Decoder.required Json.Decoder.uint32 room code,
        ← Json.Decoder.required Json.Decoder.string room level,
        ← Json.Decoder.required Json.Decoder.string room message⟩
    | _ => none

/-- The characters of a report. Bytes that are no character become half of a surrogate pair, which a
JSON text may spell and no string holds, so that they may stand in what is skipped and nowhere else.
A letter keeps them from completing an escape. -/
def reportChars (bytes : List UInt8) : List Char :=
  (Utf8.decode bytes).flatMap fun c =>
    match c with
    | some c => [c]
    | none => "x\\udfff".toList

/-- The remarks of a report. -/
def Comment.ofReport? (bytes : List UInt8) : Option (List Comment) :=
  (Json.ofChars? (reportChars bytes)).bind (Json.Decoder.list Comment.decoder).decode?

/-- The diagnostic of a remark. -/
def Comment.diagnostic (c : Comment) : Except AnalyzerError Diagnostic :=
  match Severity.ofName? c.level with
  | some severity => .ok ⟨c.code, severity, c.message⟩
  | none => .error (.malformed ("unknown level \x27" ++ c.level ++ "\x27"))

/-- The diagnostics of a report: all remarks have to be readable before the first level is looked
at. -/
def readReport (bytes : List UInt8) : Except AnalyzerError (List Diagnostic) :=
  match Comment.ofReport? bytes with
  | some comments => comments.mapM Comment.diagnostic
  | none => .error (.malformed "the report is no list of remarks")

/-! ### The outcome -/

/-- What the outcome of a call means. -/
def AnalyzerCommand.judge (c : AnalyzerCommand) : Outcome → Except AnalyzerError (List Diagnostic)
  | .notStarted cause => .error (.spawn c.program cause)
  | .ran _ (.error cause) => .error (.io cause)
  | .ran writing (.ok done) =>
    if done.status = .exited 0 ∨ done.status = .exited 1 then
      match writing with
      | .ok () => readReport done.stdout
      | .error cause => .error (.io cause)
    else .error (.failed done.status.describe (Text.trim (Utf8.decodeLenient done.stderr)))

/-- Why a call cannot even be tried: one of its words holds the character NUL. -/
def AnalyzerCommand.refusal? (c : AnalyzerCommand) : Option Outcome :=
  if (c.program :: c.arguments).any Text.hasNul
    then some (.notStarted "nul byte found in provided data") else none

/-- The analyzer that runs the call on each command. -/
def AnalyzerCommand.analyzer {m : Type → Type} [Monad m] (c : AnalyzerCommand)
    (run : String → List String → String → m Outcome) (announce : ShellCommand → m Unit) :
    Analyzer m where
  analyze command := do
    match c.refusal? with
    | some outcome => pure (c.judge outcome)
    | none =>
      let outcome ← run c.program c.arguments command
      pure (c.judge outcome)
  announce := announce

end DockerfileLint
