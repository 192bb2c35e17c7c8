import DockerfileLint.Proofs.Report.Json

/-!
# What is printed

What a check prints for a result, format by format (`LintResult.printed`), said from the findings
alone:

* as text, three lines and an empty one for each finding, and a line with the number of findings of
  each severity and the number of files, in red if there is an error, else in yellow if there is a
  warning, else in green;
* as JSON, the document of the result on several lines;
* in the compact form, a line for each finding.
-/

namespace DockerfileLint

/-- Where a finding is: its file, and its line unless it is about the file as a whole. -/
def Check.place (c : Check) : String :=
  if c.line = -1 then c.filename else c.filename ++ ":" ++ toString c.line.toInt

theorem Check.location_eq_place (c : Check) : c.location = c.place := by
  have hwhole : c.isWholeFile = true ↔ c.line = -1 := beq_iff_eq
  unfold location place
  simp only [hwhole, Decimal.text_eq_toString]

namespace LintResult

variable (r : LintResult)

/-- What is printed for a result. -/
def printed : ReportFormat → String
  | .text =>
    String.join (r.findings.map fun c =>
      c.metadata.code ++ " at " ++ c.place ++
        "\n  " ++ c.metadata.severity.name ++ ": " ++ c.metadata.message ++
        "\n  = see: " ++ helpLink c.metadata.code ++ "\n" ++ "\n") ++
      (if 0 < r.numberOf .error then "\x1b[31m"
      else if 0 < r.numberOf .warning then "\x1b[33m" else "\x1b[32m") ++
      ("Found " ++ toString (r.numberOf .error) ++ " error(s), " ++
        toString (r.numberOf .warning) ++ " warning(s), " ++
        toString (r.numberOf .info) ++ " info(s), " ++
        toString (r.numberOf .style) ++ " style(s) in " ++
        toString r.scriptsChecked.toNat ++ " file(s)") ++
      "\x1b[0m\n"
  | .json => String.ofList r.document.pretty ++ "\n"
  | .compact =>
    String.join (r.findings.map fun c =>
      c.place ++ ": " ++ c.metadata.severity.name ++ " [" ++ c.metadata.code ++ "] " ++
        c.metadata.message ++ "\n")

theorem textReport_eq_printed : r.textReport = r.printed .text := by
  have hfinding : ∀ c : Check, c.describe =
      c.metadata.code ++ " at " ++ c.place ++ "\n  " ++ c.metadata.severity.name ++ ": " ++
        c.metadata.message ++ "\n  = see: " ++ helpLink c.metadata.code ++ "\n" := by
    intro c
    rw [Check.describe, Check.location_eq_place, Check.code, Metadata.link]
  unfold textReport summary
  simp only [printed, hfinding, counts_eq_numberOf, Counts.colour, Decimal.text_natCast]

theorem compactReport_eq_printed : r.compactReport = r.printed .compact := by
  simp only [compactReport, printed, Check.display, Check.location_eq_place, Check.code]

theorem render_eq_printed (format : ReportFormat) : r.render format = r.printed format := by
  cases format with
  | text => exact r.textReport_eq_printed
  | json => rw [render, jsonReport, reportDocument_eq_document, printed]
  | compact => exact r.compactReport_eq_printed

/-- As JSON, a JSON text of the document is printed, and a line break. -/
theorem printed_json :
    ∃ text, r.printed .json = text ++ "\n" ∧ r.document.IsJsonText text.toList := by
  refine ⟨r.jsonReport, ?_, r.isJsonText_jsonReport⟩
  rw [← render_eq_printed, render]

end LintResult

end DockerfileLint
