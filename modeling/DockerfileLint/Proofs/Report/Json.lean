import DockerfileLint.Proofs.Json.Decoding
import DockerfileLint.Report

/-!
# The JSON report

The JSON report of a result is a JSON text, and reading it gives a document with an entry for each
finding, in order, the number of findings of each severity and the number of scripts
(`jsonReport_faithful`). An entry has all of a finding but its outcome, so the report determines the
findings up to that.
-/

namespace DockerfileLint

/-! ### What an entry shows -/

/-- All of a check but its outcome. -/
def Check.shown (c : Check) : Metadata × String × Int64 := (c.metadata, c.filename, c.line)

theorem Severity.name_inj {s s' : Severity} : s.name = s'.name ↔ s = s' := by
  constructor
  · intro h
    have hname := Severity.ofName?_name s
    rw [h, Severity.ofName?_name] at hname
    exact (Option.some.inj hname).symm
  · rintro rfl
    rfl

theorem Check.reportEntry_inj {c d : Check} :
    c.reportEntry = d.reportEntry ↔ c.shown = d.shown := by
  obtain ⟨⟨code, severity, message⟩, file, line, success⟩ := c
  obtain ⟨⟨code', severity', message'⟩, file', line', success'⟩ := d
  constructor
  · intro h
    simp only [reportEntry, Check.code, Severity.toJson, Json.obj, Json.str, List.map_cons,
      List.map_nil, Json.object.injEq, List.cons.injEq, Prod.mk.injEq, Json.text.injEq,
      Option.some.injEq, Json.integer.injEq, true_and,
      and_true, Severity.name_inj, Int64.toInt_inj] at h
    obtain ⟨rfl, rfl, rfl, rfl, rfl, -⟩ := h
    rfl
  · intro h
    simp only [shown, Prod.mk.injEq, Metadata.mk.injEq] at h
    obtain ⟨⟨rfl, rfl, rfl⟩, rfl, rfl⟩ := h
    rfl

theorem map_reportEntry_inj {cs ds : List Check} :
    cs.map Check.reportEntry = ds.map Check.reportEntry ↔
      cs.map Check.shown = ds.map Check.shown := by
  induction cs generalizing ds with
  | nil => cases ds <;> simp
  | cons c cs ih =>
    cases ds with
    | nil => simp
    | cons d ds => simp only [List.map_cons, List.cons.injEq, Check.reportEntry_inj, ih]

namespace LintResult

variable (r : LintResult)

/-! ### Numbers of findings -/

/-- The number of findings of a severity. -/
def numberOf (severity : Severity) : Nat :=
  r.findings.countP fun c => c.metadata.severity = severity

theorem counts_eq_numberOf :
    r.counts = ⟨r.numberOf .error, r.numberOf .warning, r.numberOf .info, r.numberOf .style⟩ := by
  have hlength : ∀ severity, (r.bySeverity severity).length = r.numberOf severity := by
    intro severity
    rw [bySeverity, numberOf, List.countP_eq_length_filter]
    rfl
  simp only [counts, hlength]

/-- Every finding is of one severity. -/
theorem numberOf_add :
    r.numberOf .error + r.numberOf .warning + r.numberOf .info + r.numberOf .style =
      r.findings.length := by
  unfold numberOf
  induction r.findings with
  | nil => rfl
  | cons c cs ih =>
    cases hc : c.metadata.severity <;> simp [hc] <;> omega

theorem numberOf_error_pos : 0 < r.numberOf .error ↔ r.hasErrors = true := by
  simp [numberOf, hasErrors, List.countP_pos_iff]

theorem numberOf_eq_countP_shown (severity : Severity) :
    r.numberOf severity = (r.findings.map Check.shown).countP fun s => s.1.severity = severity := by
  rw [List.countP_map]
  rfl

/-! ### The document -/

/-- What the JSON report of a result has to say: an entry for each finding, in order, with its code,
severity, message, file and line and the page of its code; the number of findings of each severity;
and the number of scripts. -/
def document : Json :=
  .obj [
    ("findings", .array (r.findings.map fun c => .obj [
      ("code", .str c.metadata.code), ("severity", .str c.metadata.severity.name),
      ("message", .str c.metadata.message), ("file", .str c.filename),
      ("line", .integer c.line.toInt),
      ("link", .str (helpLink c.metadata.code))])),
    ("summary", .obj [
      ("errors", .nat (r.numberOf .error)), ("warnings", .nat (r.numberOf .warning)),
      ("infos", .nat (r.numberOf .info)), ("styles", .nat (r.numberOf .style))]),
    ("scripts_checked", .nat r.scriptsChecked.toNat)]

theorem reportDocument_eq_document : r.reportDocument = r.document := by
  rw [reportDocument, counts_eq_numberOf]
  rfl

theorem exact_reportDocument : r.reportDocument.Exact := by
  have hentry : ∀ c : Check, c.reportEntry.Exact := by
    intro c
    refine Json.Exact.obj ?_
    simp [Severity.toJson, (Json.isLeaf_str _).exact, (Json.isLeaf_integer _).exact]
  have hfindings : (Json.array (r.findings.map Check.reportEntry)).Exact :=
    .array (List.forall_mem_map.2 fun c _ => hentry c)
  have hsummary : r.counts.toJson.Exact := by
    refine Json.Exact.obj ?_
    simp [(Json.isLeaf_nat _).exact]
  refine Json.Exact.obj ?_
  simp [hfindings, hsummary, (Json.isLeaf_nat _).exact]

theorem isJsonText_jsonReport : r.document.IsJsonText r.jsonReport.toList := by
  rw [← reportDocument_eq_document, jsonReport, String.toList_ofList]
  exact Json.isJsonText_pretty r.exact_reportDocument

/-- The JSON report is read as its document. -/
theorem parse?_jsonReport : Json.parse? r.jsonReport = some r.reportDocument :=
  Json.parse?_pretty r.exact_reportDocument

theorem jsonReport_inj {r r' : LintResult} :
    r.jsonReport = r'.jsonReport ↔ r.reportDocument = r'.reportDocument := by
  constructor
  · intro h
    have hread := r.parse?_jsonReport
    rw [h, parse?_jsonReport] at hread
    exact (Option.some.inj hread).symm
  · intro h
    rw [jsonReport, jsonReport, h]

theorem reportDocument_inj {r r' : LintResult} :
    r.reportDocument = r'.reportDocument ↔
      r.findings.map Check.shown = r'.findings.map Check.shown ∧
      r.scriptsChecked = r'.scriptsChecked := by
  constructor
  · intro h
    simp only [reportDocument, Json.obj, Json.nat, List.map_cons, List.map_nil, Json.object.injEq,
      List.cons.injEq, Prod.mk.injEq, Json.array.injEq, Json.integer.injEq, true_and, and_true,
      map_reportEntry_inj, Int.natCast_inj,
      UInt64.toNat_inj] at h
    exact ⟨h.1, h.2.2⟩
  · rintro ⟨hfindings, hscripts⟩
    have hcounts : r.counts = r'.counts := by
      simp only [counts_eq_numberOf, numberOf_eq_countP_shown, hfindings]
    rw [reportDocument, reportDocument, map_reportEntry_inj.2 hfindings, hcounts, hscripts]

/-- The JSON report is faithful. It is a JSON text of a document with an entry for each finding, in
order, that has its code, severity, message, file and line and the page of its code; with the number
of findings of each severity; and with the number of scripts. The reader gets that document back.
The four numbers add up to the number of findings, and that of errors is positive exactly when the
result has errors. Two results have the same report exactly when they have the same scripts and
their findings agree up to the outcome. -/
theorem jsonReport_faithful :
    r.document.IsJsonText r.jsonReport.toList ∧ Json.parse? r.jsonReport = some r.document ∧
    r.numberOf .error + r.numberOf .warning + r.numberOf .info + r.numberOf .style =
      r.findings.length ∧
    (0 < r.numberOf .error ↔ r.hasErrors = true) ∧
    ∀ r' : LintResult, r.jsonReport = r'.jsonReport ↔
      r.findings.map Check.shown = r'.findings.map Check.shown ∧
      r.scriptsChecked = r'.scriptsChecked := by
  refine ⟨r.isJsonText_jsonReport, ?_, r.numberOf_add, r.numberOf_error_pos,
    fun r' => jsonReport_inj.trans reportDocument_inj⟩
  rw [parse?_jsonReport, reportDocument_eq_document]

end LintResult

end DockerfileLint
