import DockerfileLint.Report

/-!
# The command line

The words of a call, read from left to right:

* options that all commands share may stand before the command and after it, those of a command only
  after it, in any order and among its operands;
* a long option is `--name` or `--name=value`, never abbreviated; short ones may be joined (`-vf
  json`), and a value may follow its letter directly (`-fjson`, `-f=json`);
* a word that starts with a dash is never the value of the option before it, a lone dash apart;
* after `--` all words are operands;
* only `--ignore` may be repeated.

A request for help or for the version ends the reading where it stands; so does the first mistake.
-/

namespace DockerfileLint.CommandLine

/-! ### Options -/

/-- The options. -/
inductive Switch where
  | verbose
  | config
  | help
  | version
  | format
  | rules
  | ignore
  | noShellcheck
  | force
  deriving DecidableEq, Repr

namespace Switch

/-- The long name. -/
def long : Switch → String
  | verbose => "verbose"
  | config => "config"
  | help => "help"
  | version => "version"
  | format => "format"
  | rules => "rules"
  | ignore => "ignore"
  | noShellcheck => "no-shellcheck"
  | force => "force"

/-- The letter, for those that have one. -/
def letter? : Switch → Option Char
  | verbose => some 'v'
  | config => some 'c'
  | help => some 'h'
  | version => some 'V'
  | format => some 'f'
  | ignore => some 'i'
  | rules | noShellcheck | force => none

/-- Whether a value belongs to the option. -/
def takesValue : Switch → Bool
  | config | format | rules | ignore => true
  | verbose | help | version | noShellcheck | force => false

/-- The options in front of a command. -/
def atFront : List Switch := [verbose, config, help, version]

/-- The options of `check`. -/
def ofCheck : List Switch := [verbose, config, help, format, rules, ignore, noShellcheck]

/-- The options of `list-rules`. -/
def ofListRules : List Switch := [verbose, config, help]

/-- The options of `init`. -/
def ofInit : List Switch := [verbose, config, help, force]

end Switch

/-! ### Words -/

/-- What the words of a call are. An operand comes with the words after it; what stands after `--`
is trailing. -/
inductive Item where
  | flag (switch : Switch)
  | value (switch : Switch) (text : String)
  | operand (text : String) (rest : List String)
  | trailing (text : String)
  | mistake
  deriving DecidableEq, Repr

/-- What joined letters are: options without a value, then perhaps one with a value and the value,
if it stands there. -/
inductive Joined where
  | flags (switches : List Switch)
  | option (switches : List Switch) (last : Switch) (value : Option String)
  | mistake (switches : List Switch)
  deriving DecidableEq, Repr

/-- One more option in front of joined letters. -/
def Joined.cons (s : Switch) : Joined → Joined
  | flags ss => flags (s :: ss)
  | option ss last value => option (s :: ss) last value
  | mistake ss => mistake (s :: ss)

/-- The value that stands right after its letter; an equals sign between them does not count. -/
def attached : List Char → Option String
  | [] => none
  | '=' :: cs => some (String.ofList cs)
  | cs => some (String.ofList cs)

/-- Reads joined letters. -/
def letters (known : List Switch) : List Char → Joined
  | [] => .flags []
  | c :: cs =>
    match known.find? fun s => s.letter? == some c with
    | none => .mistake []
    | some s => if s.takesValue then .option [] s (attached cs) else (letters known cs).cons s

/-- Whether a word can only be an option. -/
def looksLikeOption (word : String) : Bool := Text.startsWith word "-" && word != "-"

/-- Reads a long option: its name and the value after an equals sign. -/
def long (known : List Switch) (name : String) (value : Option String) : Joined :=
  match known.find? fun s => s.long == name with
  | none => .mistake []
  | some s =>
    if s.takesValue then .option [] s value
    else if value.isSome then .mistake []
    else .flags [s]

/-- Reads the word of one or more options. -/
def options (known : List Switch) (word : String) : Joined :=
  if Text.startsWith word "--" then
    let body := String.ofList (word.toList.drop 2)
    long known (Text.before body '=')
      (if Text.hasChar body '=' then some (Text.after body '=') else none)
  else letters known (word.toList.drop 1)

/-- What the words are. -/
def items (known : List Switch) : List String → List Item
  | [] => []
  | word :: rest =>
    if word = "--" then rest.map .trailing
    else if looksLikeOption word then
      match options known word with
      | .flags ss => ss.map .flag ++ items known rest
      | .mistake ss => ss.map .flag ++ [.mistake]
      | .option ss last (some value) => ss.map .flag ++ .value last value :: items known rest
      | .option ss last none =>
        match rest with
        | [] => ss.map .flag ++ [.mistake]
        | value :: rest =>
          if looksLikeOption value then ss.map .flag ++ [.mistake]
          else ss.map .flag ++ .value last value :: items known rest
    else .operand word rest :: items known rest

/-! ### Calls -/

/-- Why there is no command to run. -/
inductive Stop where
  | usage
  | help
  | version
  deriving DecidableEq, Repr

/-- What the shared options say. -/
structure Shared where
  verbose : Bool := false
  config : Option String := none
  deriving DecidableEq, Repr

/-- What the options of `check` say. -/
structure CheckOptions where
  format : ReportFormat := .text
  rules : Option String := none
  ignore : List String := []
  noShellcheck : Bool := false
  deriving DecidableEq, Repr

/-- What is to be done. -/
inductive Command where
  | check (files : List String) (options : CheckOptions)
  | listRules
  | init (force : Bool)
  deriving DecidableEq, Repr

/-- A command with the shared options. -/
structure Invocation where
  verbose : Bool
  config : Option String
  command : Command
  deriving DecidableEq, Repr

/-- One more shared option. -/
def Shared.accept (s : Shared) : Item → Except Stop Shared
  | .flag .verbose => if s.verbose then .error .usage else .ok { s with verbose := true }
  | .flag .help => .error .help
  | .flag .version => .error .version
  | .value .config path =>
    if path = "" ∨ s.config.isSome then .error .usage else .ok { s with config := some path }
  | _ => .error .usage

/-- The shared options, the name of the command and the words after it. -/
def front (s : Shared) : List Item → Except Stop (Shared × String × List String)
  | [] => .error .usage
  | .operand name rest :: _ => .ok (s, name, rest)
  | item :: more =>
    match s.accept item with
    | .ok s => front s more
    | .error e => .error e

/-- What the words after `check` said so far. -/
structure CheckDraft where
  shared : Shared := {}
  files : List String := []
  format : Option ReportFormat := none
  rules : Option String := none
  ignore : List String := []
  noShellcheck : Bool := false
  deriving DecidableEq, Repr

/-- One more file. -/
def CheckDraft.addFile (d : CheckDraft) (file : String) : Except Stop CheckDraft :=
  if file = "" then .error .usage else .ok { d with files := d.files ++ [file] }

/-- One more word after `check`. -/
def CheckDraft.accept (d : CheckDraft) : Item → Except Stop CheckDraft
  | .operand file _ => d.addFile file
  | .trailing file => d.addFile file
  | .value .format name =>
    match d.format, ReportFormat.ofName? name with
    | none, some format => .ok { d with format := some format }
    | _, _ => .error .usage
  | .value .rules selection =>
    if d.rules.isSome then .error .usage else .ok { d with rules := some selection }
  | .value .ignore code => .ok { d with ignore := d.ignore ++ [code] }
  | .flag .noShellcheck =>
    if d.noShellcheck then .error .usage else .ok { d with noShellcheck := true }
  | item => (d.shared.accept item).map fun shared => { d with shared }

/-- One more word after `init`. -/
def acceptInit (d : Shared × Bool) : Item → Except Stop (Shared × Bool)
  | .flag .force => if d.2 then .error .usage else .ok (d.1, true)
  | item => (d.1.accept item).map fun shared => (shared, d.2)

/-- The command with a name, and the shared options after it. -/
def command (name : String) (words : List String) : Except Stop (Shared × Command) :=
  match name with
  | "check" => do
    let d ← (items Switch.ofCheck words).foldlM CheckDraft.accept {}
    if d.files.isEmpty then .error .usage
    else .ok (d.shared, .check d.files ⟨d.format.getD .text, d.rules, d.ignore, d.noShellcheck⟩)
  | "list-rules" => do
    let shared ← (items Switch.ofListRules words).foldlM Shared.accept {}
    .ok (shared, .listRules)
  | "init" => do
    let d ← (items Switch.ofInit words).foldlM acceptInit ({}, false)
    .ok (d.1, .init d.2)
  | "help" =>
    match words with
    | [] => .error .help
    | [topic] =>
      .error (if ["check", "list-rules", "init", "help"].contains topic then .help else .usage)
    | _ => .error .usage
  | _ => .error .usage

/-- Reads a call. The path of the configuration is the one after the command, else the one in front
of it, else `fallback`; a fallback that is needed on either side must not be empty. -/
def parse (fallback : Option String) (words : List String) : Except Stop Invocation := do
  let (outer, name, rest) ← front {} (items Switch.atFront words)
  let (inner, command) ← command name rest
  if fallback = some "" ∧ (outer.config = none ∨ inner.config = none) then .error .usage
  else .ok ⟨outer.verbose || inner.verbose, inner.config.or (outer.config.or fallback), command⟩

/-- The text for a request for help. -/
def helpText : String :=
  "Dockerfile linter for parsed build scripts\n\n" ++
    "Usage: docklint [OPTIONS] <COMMAND>\n\nCommands:\n" ++
    "  check       Lint parsed Dockerfiles\n  list-rules  List available rules\n" ++
    "  init        Initialize configuration file\n" ++
    "  help        Print this message or the help of the given subcommand(s)\n\nOptions:\n" ++
    "  -v, --verbose          Enable verbose output\n" ++
    "  -c, --config <CONFIG>  Path to configuration file [env: DOCKLINT_CONFIG=]\n" ++
    "  -h, --help             Print help\n  -V, --version          Print version\n"

/-- The text for a request for the version. -/
def versionText : String := "docklint 0.1.0\n"

end DockerfileLint.CommandLine
