import DockerfileLint.Check
import DockerfileLint.Instruction

/-!
# Rules

A rule pairs metadata with a test. An instruction rule judges each instruction by itself, under its
`ONBUILD` layers, and yields one check per instruction. A whole-file rule judges the top-level
instructions together and yields a single check on the whole file.
-/

namespace DockerfileLint

/-- What a rule looks at; the test holds where the rule is kept. -/
inductive Test where
  | each (holds : Instruction → Bool)
  | whole (holds : List Instruction → Bool)

/-- A named test with its metadata. -/
structure Rule where
  name : String
  metadata : Metadata
  test : Test

namespace Rule

/-- The code of the rule. -/
def code (r : Rule) : String := r.metadata.code

/-- Whether the rule judges the file as a whole. -/
def isWholeFile (r : Rule) : Bool :=
  match r.test with
  | .each _ => false
  | .whole _ => true

/-- The rule under another severity. -/
def withSeverity (r : Rule) (severity : Severity) : Rule :=
  { r with metadata := r.metadata.withSeverity severity }

/-- Whether the key is the code or the name of the rule. -/
def answersTo (r : Rule) (key : String) : Bool := r.code == key || r.name == key

/-- The checks of the rule on a script. A check on the whole file bears the name of the file of the
first instruction. -/
def check (r : Rule) (script : Script) : List Check :=
  match r.test with
  | .each holds => script.map fun p => ⟨r.metadata, p.source, p.line, holds p.instruction.effective⟩
  | .whole holds =>
    [⟨r.metadata, (script.head?.map Positioned.source).getD "", wholeFileLine,
      holds (script.map Positioned.instruction)⟩]

end Rule

end DockerfileLint
