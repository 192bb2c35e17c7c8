import DockerfileLint.Catalog.Selection
import DockerfileLint.CommandLine
import DockerfileLint.Config.Discovery
import DockerfileLint.Config.Writer
import DockerfileLint.Document.Script
import DockerfileLint.Linter.Configured

/-!
# The program

What the commands do on a host. `check` lints files one after the other and prints one report at the
end: the first file that cannot be read, decoded or linted ends it without a report. `init` writes
the default configuration and `list-rules` prints the catalog.
-/

namespace DockerfileLint.Program

open CommandLine (CheckOptions Command Invocation Stop)

/-! ### Endings -/

/-- What the program found in its surroundings. -/
structure Environment where
  cwd : String
  config : Option String := none
  configDir : Option String := none
  home : Option String := none

/-- Why a command could not do its work. -/
inductive Failure where
  | configFile (path : String) (cause : ConfigError)
  | configSearch (dir : String) (cause : ConfigError)
  | scriptUnreadable (path : String) (cause : FileError)
  | scriptMalformed (path : String)
  | configPresent (path : String)
  | configUnwritable (cause : FileError)
  deriving DecidableEq, Repr

/-- The wording of a failure. -/
def Failure.message : Failure → String
  | configFile path _ => "Failed to load config: " ++ path
  | configSearch dir _ => "Failed to load config for " ++ dir
  | scriptUnreadable path _ => "Failed to read " ++ path
  | scriptMalformed path => "Failed to parse instructions in " ++ path
  | configPresent path =>
    "Configuration file already exists at " ++ path ++ ". Use --force to overwrite."
  | configUnwritable cause => cause.message

/-- How a run ended. -/
inductive Ending where
  | clean
  | findings
  | failure (cause : Failure)
  | lintFailure (cause : LintError)
  | usage
  deriving DecidableEq, Repr

/-- The exit code. -/
def Ending.exitCode : Ending → UInt8
  | clean => 0
  | findings => 1
  | failure _ => 1
  | lintFailure _ => 2
  | usage => 2

/-- The failure that ended a run. -/
def Ending.failure? : Ending → Option Failure
  | failure cause => some cause
  | _ => none

/-- What a run printed and how it ended. -/
structure Reply where
  stdout : String
  ending : Ending
  deriving DecidableEq, Repr

variable {m : Type → Type} [Monad m]

/-! ### Checking -/

/-- A directory that is named by a text; the empty text names none. -/
def directory? (name : Option String) : Option String := name.filter fun dir => dir ≠ ""

/-- The directory of the global configuration: the one that is named, else one in the home
directory. -/
def Environment.globalDir (e : Environment) : Option String :=
  (directory? e.configDir).or ((directory? e.home).map (joinPath · ".docklint"))

/-- The configuration of a check: that of the file that was named, or the one that holds in the
working directory. -/
def loadConfig (host : Host m) (cwd : String) (named global : Option String) :
    m (Except Failure Config) := do
  match named with
  | some path =>
    host.debug ("Using config from --config: " ++ path)
    pure ((← Config.ofFile host path).mapError (.configFile path))
  | none => pure ((← Config.discover host cwd global).mapError (.configSearch cwd))

/-- The configuration with what the options add to it. -/
def withOptions (options : CheckOptions) (config : Config) : Config where
  ignored := config.ignored ++ options.ignore
  rules := config.rules
  shellcheck :=
    { config.shellcheck with enabled := config.shellcheck.enabled && !options.noShellcheck }

/-- The rules that the options choose. -/
def chosenRules : Option String → List Rule
  | none => Catalog.all
  | some selection => Catalog.select selection

/-- Records the keys of a selection that no rule answers to. -/
def warnUnknown (host : Host m) : List String → m Unit
  | [] => pure ()
  | key :: rest => do
    host.debug ("No built-in rule matches " ++ key)
    host.warn ("Unknown rule: " ++ key)
    warnUnknown host rest

/-- Records the rules that are not run. -/
def noteSkipped (host : Host m) : List Rule → m Unit
  | [] => pure ()
  | rule :: rest => do
    host.debug ("Skipping disabled rule: " ++ rule.name)
    noteSkipped host rest

/-- Records a command that the analyzer gets. -/
def announce (host : Host m) (c : ShellCommand) : m Unit :=
  host.debug ("Running shell analyzer on: " ++ c.text ++ " line=" ++ Decimal.text c.line.toInt)

/-- The linter of a check. -/
def linterOf (host : Host m) (config : Config) (rules : List Rule) : Linter m :=
  Linter.ofConfig host.run (announce host) config rules

/-- Records how the linter of a check is set up. -/
def noteSetup (host : Host m) (config : Config) (rules : List Rule) : m Unit := do
  if config.shellcheck.enabled
    then host.debug ("Using shell analyzer: " ++ config.shellcheck.program)
  else host.debug "Shell analyzer disabled"
  noteSkipped host (rules.filter fun rule => !config.runs rule)

/-- The script in a file. -/
def readScript (host : Host m) (path : String) : m (Except Failure Script) := do
  match ← host.readFile path with
  | .error cause => pure (.error (.scriptUnreadable path cause))
  | .ok text =>
    match Script.parse? text with
    | some script => pure (.ok script)
    | none => pure (.error (.scriptMalformed path))

/-- The name under which a script is recorded. -/
def sourceName (script : Script) : String := (script.head?.map Positioned.source).getD "<empty>"

/-- Lints a script and records it. -/
def lintScript (host : Host m) (linter : Linter m) (script : Script) :
    m (Except LintError LintResult) := do
  host.info ("Linting " ++ sourceName script ++ " (" ++ Decimal.text script.length ++
    " instructions)")
  match ← linter.lint script with
  | .error e => pure (.error e)
  | .ok result =>
    host.info ("Lint complete: " ++ Decimal.text result.findings.length ++ " findings in " ++
      sourceName script)
    pure (.ok result)

/-- Lints the files one after the other and joins what is found to `found`; an error is how the
check ends. -/
def checkFiles (host : Host m) (linter : Linter m) :
    LintResult → List String → m (Except Ending LintResult)
  | found, [] => pure (.ok found)
  | found, file :: rest => do
    match ← readScript host file with
    | .error cause => pure (.error (.failure cause))
    | .ok script =>
      match ← lintScript host linter script with
      | .error cause => pure (.error (.lintFailure cause))
      | .ok result => checkFiles host linter (found.extend result) rest

/-- The reply to a check that went through all files, or ended before. -/
def reply (format : ReportFormat) : Except Ending LintResult → Reply
  | .ok found => ⟨found.render format, if found.hasFindings then .findings else .clean⟩
  | .error ending => ⟨"", ending⟩

/-- Checks files under a configuration. -/
def check (host : Host m) (files : List String) (options : CheckOptions) (config : Config) :
    m Reply := do
  let config := withOptions options config
  let rules := chosenRules options.rules
  warnUnknown host (options.rules.toList.flatMap Catalog.unknownKeys)
  noteSetup host config rules
  let linter := linterOf host config rules
  host.info ("Checking " ++ Decimal.text files.length ++ " file(s) with " ++
    Decimal.text linter.rules.length ++
    " rules")
  let found ← checkFiles host linter .empty files
  pure (reply options.format found)

/-! ### Listing -/

/-- The columns of a line of the catalog. -/
def columns (code severity name message : String) : String :=
  Text.padRight code 8 ++ " " ++ Text.padRight severity 10 ++ " " ++ Text.padRight name 24 ++ " " ++
    message ++ "\n"

/-- The line of a rule. -/
def ruleLine (rule : Rule) : String :=
  columns rule.code rule.metadata.severity.name rule.name
    (rule.metadata.message ++ if rule.isWholeFile then " (whole file)" else "")

/-- The catalog as a table. -/
def ruleList : String :=
  "Available rules:\n\n" ++ columns "Code" "Severity" "Name" "Description" ++
    String.ofList (List.replicate 100 '-') ++ "\n" ++ String.join (Catalog.all.map ruleLine) ++
    "\nShell analyzer findings use SC codes, see https://github.com/koalaman/shellcheck/wiki\n" ++
    "\nUse --rules to filter specific rules, e.g.:\n" ++
    "  docklint check --rules no-latest-tag,apt-get-pinned Dockerfile.json\n" ++
    "  docklint check --rules DL3007,DL3008 Dockerfile.json\n"

/-! ### Starting a project -/

/-- The text after a configuration was written. -/
def nextSteps : String :=
  "Created " ++ Config.projectFile ++ "\n\nNext steps:\n  1. Edit " ++ Config.projectFile ++
    " to configure rules\n  2. Run: docklint check Dockerfile.json\n"

/-- Writes the default configuration, over an existing one only by force. -/
def init (host : Host m) (force : Bool) : m Reply := do
  let present ← host.occupied Config.projectFile
  if present && !force then pure ⟨"", .failure (.configPresent Config.projectFile)⟩
  else
    match ← host.writeFile Config.projectFile Config.template with
    | .ok () => pure ⟨nextSteps, .clean⟩
    | .error cause => pure ⟨"", .failure (.configUnwritable cause)⟩

/-! ### Running -/

/-- Does what was asked for. -/
def perform (host : Host m) (e : Environment) (call : Invocation) : m Reply := do
  let host := host.verbose call.verbose
  match call.command with
  | .check files options =>
    match ← loadConfig host e.cwd call.config e.globalDir with
    | .ok config => check host files options config
    | .error cause => pure ⟨"", .failure cause⟩
  | .listRules => pure ⟨ruleList, .clean⟩
  | .init force => init host force

/-- Runs the program on the words of a call. -/
def run (host : Host m) (e : Environment) (words : List String) : m Reply :=
  match CommandLine.parse e.config words with
  | .ok call => perform host e call
  | .error .help => pure ⟨CommandLine.helpText, .clean⟩
  | .error .version => pure ⟨CommandLine.versionText, .clean⟩
  | .error .usage => pure ⟨"", .usage⟩

end DockerfileLint.Program
