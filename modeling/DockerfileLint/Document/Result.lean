import DockerfileLint.Document.Script
import DockerfileLint.Result

/-!
# Checks and results as JSON documents
-/

namespace DockerfileLint

open Json (Decoder)
open Json.Decoder (string list record required)

/-! ### Writing -/

/-- The document of a severity. -/
def Severity.toJson (s : Severity) : Json := .str s.name

/-- The document of metadata. -/
def Metadata.toJson (m : Metadata) : Json :=
  .obj [("code", .str m.code), ("severity", m.severity.toJson), ("message", .str m.message)]

/-- The document of a check. -/
def Check.toJson (c : Check) : Json :=
  .obj [("metadata", c.metadata.toJson), ("filename", .str c.filename),
    ("linenumber", .integer c.line.toInt), ("success", .bool c.success)]

/-- The document of counts. -/
def Counts.toJson (c : Counts) : Json :=
  .obj [("errors", .nat c.errors), ("warnings", .nat c.warnings), ("infos", .nat c.infos),
    ("styles", .nat c.styles)]

/-- The document of a result. -/
def LintResult.toJson (r : LintResult) : Json :=
  .obj [("findings", .array (r.findings.map Check.toJson)),
    ("scripts_checked", .nat r.scriptsChecked.toNat)]

/-! ### Reading -/

/-- Reads a severity. -/
def Severity.decoder : Decoder Severity := Decoder.choice Severity.ofName?

/-- Reads metadata. -/
def Metadata.decoder : Decoder Metadata :=
  record ["code", "severity", "message"] fun room fields =>
    match fields with
    | [code, severity, message] => do
      pure ⟨← required string room code, ← required Severity.decoder room severity,
        ← required string room message⟩
    | _ => none

/-- Reads a check. -/
def Check.decoder : Decoder Check :=
  record ["metadata", "filename", "linenumber", "success"] fun room fields =>
    match fields with
    | [metadata, filename, line, success] => do
      pure ⟨← required Metadata.decoder room metadata, ← required string room filename,
        ← required Decoder.int64 room line, ← required Decoder.bool room success⟩
    | _ => none

/-- Reads a result. -/
def LintResult.decoder : Decoder LintResult :=
  record ["findings", "scripts_checked"] fun room fields =>
    match fields with
    | [findings, scripts] => do
      pure ⟨← required (list Check.decoder) room findings, ← required Decoder.uint64 room scripts⟩
    | _ => none

/-- The result that a JSON text holds. -/
def LintResult.parse? (text : String) : Option LintResult := LintResult.decoder.parse? text

end DockerfileLint
