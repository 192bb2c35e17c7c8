import DockerfileLint.Document.Result
import DockerfileLint.Json.Writer

/-!
# Reports

A result as text for the terminal, as JSON, and as one line per finding.
-/

namespace DockerfileLint

/-- The form of a report. -/
inductive ReportFormat where
  | text
  | json
  | compact
  deriving DecidableEq, Repr

/-- The form with a written name. -/
def ReportFormat.ofName? : String → Option ReportFormat
  | "text" => some .text
  | "json" => some .json
  | "compact" => some .compact
  | _ => none

/-- The colour of the summary: red with errors, else yellow with warnings, else green. -/
def Counts.colour (c : Counts) : String :=
  if 0 < c.errors then "\x1b[31m" else if 0 < c.warnings then "\x1b[33m" else "\x1b[32m"

/-- The entry of a finding in the JSON report. -/
def Check.reportEntry (c : Check) : Json :=
  .obj [("code", .str c.code), ("severity", c.metadata.severity.toJson),
    ("message", .str c.metadata.message), ("file", .str c.filename),
    ("line", .integer c.line.toInt), ("link", .str c.metadata.link)]

namespace LintResult

/-- The numbers of findings in one sentence. -/
def summary (r : LintResult) : String :=
  let c := r.counts
  "Found " ++ Decimal.text c.errors ++ " error(s), " ++ Decimal.text c.warnings ++
    " warning(s), " ++
    Decimal.text c.infos ++ " info(s), " ++ Decimal.text c.styles ++ " style(s) in " ++
    Decimal.text r.scriptsChecked.toNat ++ " file(s)"

/-- The findings one after the other, and the summary in colour. -/
def textReport (r : LintResult) : String :=
  String.join (r.findings.map fun c => c.describe ++ "\n") ++ r.counts.colour ++ r.summary ++
    "\x1b[0m\n"

/-- The document of the JSON report. -/
def reportDocument (r : LintResult) : Json :=
  .obj [("findings", .array (r.findings.map Check.reportEntry)), ("summary", r.counts.toJson),
    ("scripts_checked", .nat r.scriptsChecked.toNat)]

/-- The JSON report. -/
def jsonReport (r : LintResult) : String := String.ofList r.reportDocument.pretty

/-- One line per finding. -/
def compactReport (r : LintResult) : String :=
  String.join (r.findings.map fun c => c.display ++ "\n")

/-- The result in one of the forms. -/
def render (r : LintResult) : ReportFormat → String
  | .text => r.textReport
  | .json => r.jsonReport ++ "\n"
  | .compact => r.compactReport

end LintResult

end DockerfileLint
