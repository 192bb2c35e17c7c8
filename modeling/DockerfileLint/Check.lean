import DockerfileLint.Decimal
import DockerfileLint.Text

/-!
# Checks

A check is the outcome of one rule at one place: its metadata, a file, a line and whether it passed.
A check that did not pass is a finding. Line `-1` stands for the file as a whole.
-/

namespace DockerfileLint

/-- How grave a finding is, from `info` up to `style`. -/
inductive Severity where
  | info
  | warning
  | error
  | style
  deriving DecidableEq, Repr

namespace Severity

/-- The written name of a severity. -/
def name : Severity → String
  | .info => "info"
  | .warning => "warning"
  | .error => "error"
  | .style => "style"

/-- The severity with a written name. -/
def ofName? : String → Option Severity
  | "info" => some .info
  | "warning" => some .warning
  | "error" => some .error
  | "style" => some .style
  | _ => none

@[simp] theorem ofName?_name (s : Severity) : ofName? s.name = some s := by
  cases s <;> rfl

theorem eq_name_of_ofName? {text : String} {s : Severity} (h : ofName? text = some s) :
    text = s.name := by
  unfold ofName? at h
  split at h <;> simp at h <;> subst h <;> rfl

/-- The place of a severity in their order. -/
def rank : Severity → Nat
  | .info => 0
  | .warning => 1
  | .error => 2
  | .style => 3

end Severity

/-- The page that explains a code. -/
def helpLink (code : String) : String :=
  if Text.startsWith code "DL" then "https://github.com/hadolint/hadolint/wiki/" ++ code
  else if Text.startsWith code "SC" then "https://github.com/koalaman/shellcheck/wiki/" ++ code
  else "https://github.com/hadolint/hadolint"

/-- What a rule says about its findings. -/
structure Metadata where
  code : String
  severity : Severity
  message : String
  deriving DecidableEq, Repr

namespace Metadata

/-- The page that explains the code. -/
def link (m : Metadata) : String := helpLink m.code

/-- The same text under another severity. -/
def withSeverity (m : Metadata) (severity : Severity) : Metadata := { m with severity }

end Metadata

/-- The line of a check on the file as a whole. -/
def wholeFileLine : Int64 := -1

/-- The outcome of a rule at a place. -/
structure Check where
  metadata : Metadata
  filename : String
  line : Int64
  success : Bool
  deriving DecidableEq, Repr

namespace Check

/-- Whether the check failed. -/
def isFinding (c : Check) : Bool := !c.success

/-- Whether the check is on the file as a whole. -/
def isWholeFile (c : Check) : Bool := c.line == wholeFileLine

/-- The code of the rule. -/
def code (c : Check) : String := c.metadata.code

/-- The file, and the line unless the check is on the whole file. -/
def location (c : Check) : String :=
  if c.isWholeFile then c.filename else c.filename ++ ":" ++ Decimal.text c.line.toInt

/-- The check on one line. -/
def display (c : Check) : String :=
  c.location ++ ": " ++ c.metadata.severity.name ++ " [" ++ c.code ++ "] " ++ c.metadata.message

/-- The check on three lines, with the page that explains it. -/
def describe (c : Check) : String :=
  c.code ++ " at " ++ c.location ++ "\n  " ++ c.metadata.severity.name ++ ": " ++
    c.metadata.message ++
    "\n  = see: " ++ c.metadata.link ++ "\n"

end Check

end DockerfileLint
