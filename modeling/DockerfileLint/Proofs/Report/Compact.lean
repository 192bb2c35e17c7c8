import DockerfileLint.Proofs.Remarks
import DockerfileLint.Proofs.Text
import DockerfileLint.Report

/-!
# The compact report

The compact report has the display of each finding and a line break after it. Whether that is one
line for each finding depends on the findings alone: the name of a file comes from the script and
the message of a remark from the analyzer, and both may hold line breaks of their own. Without such,
the lines are the displays; with one, they are not (`compactReport_one_line_iff`).
-/

namespace DockerfileLint

/-! ### Texts on one line -/

/-- The text has no line break. -/
def Text.OneLine (s : String) : Prop := '\n' ∉ s.toList

instance (s : String) : Decidable (Text.OneLine s) := inferInstanceAs (Decidable ('\n' ∉ s.toList))

open Text (OneLine)

theorem Text.oneLine_ofList {cs : List Char} (h : '\n' ∉ cs) : OneLine (String.ofList cs) := by
  rwa [OneLine, String.toList_ofList]

theorem Text.oneLine_append {s t : String} : OneLine (s ++ t) ↔ OneLine s ∧ OneLine t := by
  simp [OneLine]

theorem Decimal.oneLine_text (n : Int) : OneLine (text n) := by
  have hdigits : ∀ k, '\n' ∉ digits k := by
    intro k hk
    exact absurd (isDigit_of_mem_digits k _ hk) (by decide)
  rw [OneLine, text, String.toList_ofList]
  cases n with
  | ofNat k => exact hdigits k
  | negSucc k =>
    intro hk
    rcases List.mem_cons.1 hk with hk | hk
    · exact absurd hk (by decide)
    · exact hdigits _ hk

theorem Severity.oneLine_name (s : Severity) : OneLine s.name := by
  cases s <;> decide

theorem Check.oneLine_location {c : Check} : OneLine c.location ↔ OneLine c.filename := by
  unfold location
  split
  · rfl
  · have hcolon : OneLine ":" := by decide
    simp only [Text.oneLine_append, hcolon, Decimal.oneLine_text, and_true]

/-- The display of a check breaks where its file, its code or its message does. -/
theorem Check.oneLine_display {c : Check} :
    OneLine c.display ↔ OneLine c.filename ∧ OneLine c.code ∧ OneLine c.metadata.message := by
  have hcolon : OneLine ": " := by decide
  have hopen : OneLine " [" := by decide
  have hclose : OneLine "] " := by decide
  simp only [display, Text.oneLine_append, oneLine_location, Severity.oneLine_name, hcolon, hopen,
    hclose, and_true, and_assoc]

/-! ### Lines of a report -/

namespace LintResult

variable (r : LintResult)

/-- The compact report as lines with breaks between them; nothing stands after the last break. -/
theorem compactReport_eq_intercalate :
    r.compactReport = (String.singleton '\n').intercalate
      (r.findings.map Check.display ++ [""]) := by
  unfold compactReport
  induction r.findings with
  | nil => rfl
  | cons c cs ih =>
    rw [← String.toList_inj, String.toList_intercalate] at ih ⊢
    rw [List.map_cons, String.toList_join, List.flatMap_cons, ← String.toList_join, ih,
      List.map_cons, List.cons_append, List.map_cons, List.intercalate_cons_of_ne_nil (by simp),
      String.toList_append]
    rfl

/-- There is one line break for each finding, and those that the displays have. -/
theorem count_compactReport :
    r.compactReport.toList.count '\n' =
      r.findings.length + (r.findings.flatMap fun c => c.display.toList).count '\n' := by
  unfold compactReport
  induction r.findings with
  | nil => rfl
  | cons c cs ih =>
    have hbreak : "\n".toList.count '\n' = 1 := by decide
    rw [List.map_cons, String.toList_join, List.flatMap_cons, List.count_append,
      ← String.toList_join, ih, String.toList_append, List.count_append, hbreak, List.flatMap_cons,
      List.count_append, List.length_cons]
    omega

theorem count_compactReport_eq_length_iff :
    r.compactReport.toList.count '\n' = r.findings.length ↔
      ∀ c ∈ r.findings, OneLine c.display := by
  rw [count_compactReport, Nat.add_eq_left, List.count_eq_zero]
  simp only [List.mem_flatMap, not_exists, not_and, OneLine]

theorem splitOn_compactReport_iff :
    Text.splitOn r.compactReport '\n' = r.findings.map Check.display ++ [""] ↔
      ∀ c ∈ r.findings, OneLine c.display := by
  constructor
  · intro hlines c hc
    refine Text.not_mem_of_mem_splitOn (s := r.compactReport) ?_
    rw [hlines]
    exact List.mem_append_left _ (List.mem_map_of_mem hc)
  · intro hdisplays
    rw [compactReport_eq_intercalate]
    refine Text.splitOn_intercalate (by simp) (List.forall_mem_append.2 ⟨?_, by simp⟩)
    exact List.forall_mem_map.2 hdisplays

end LintResult

/-! ### Findings of the catalog and of an analyzer -/

theorem Config.message_weigh (config : Config) (r : Rule) :
    (config.weigh r).metadata.message = r.metadata.message := by
  unfold weigh
  split <;> rfl

set_option maxRecDepth 2000 in
theorem Catalog.oneLine_texts : ∀ r ∈ all, OneLine r.code ∧ OneLine r.metadata.message := by
  unfold all
  simp only [List.forall_mem_cons, List.not_mem_nil, false_imp_iff, implies_true, and_true]
  -- each text is unfolded to its characters, since evaluating `String.toList` on a literal is slow
  and_intros <;> exact Text.oneLine_ofList (by decide)

theorem Diagnostic.oneLine_code (d : Diagnostic) : OneLine d.metadata.code :=
  Text.oneLine_append.2 ⟨by decide, Decimal.oneLine_text _⟩

/-- Codes do not break lines, and of the messages only those of remarks can. -/
theorem Catalog.oneLine_of_mem_findings {σ : Type} {analyzer : Option (Analyzer (StateM σ))}
    {config : Config} {script : Script} {st : σ} {r : LintResult}
    (h : (((linter analyzer config).lint script).run st).1 = .ok r) {c : Check}
    (hc : c ∈ r.findings) :
    OneLine c.code ∧ (c.isRemark = false → OneLine c.metadata.message) := by
  obtain ⟨checks, hchecks, rfl⟩ := Linter.exists_of_run_lint h
  obtain ⟨found, rfl, hfound⟩ := Linter.evaluate_eq_append_checks hchecks
  rw [Linter.findings_report, mem_sortByLine] at hc
  rcases List.mem_append.1 (List.mem_filter.1 hc).1 with hrule | hremark
  · rw [ruleChecks_linter] at hrule
    obtain ⟨q, hq, hcheck⟩ := List.mem_flatMap.1 hrule
    obtain ⟨hcode, hmessage⟩ := oneLine_texts q (List.mem_filter.1 hq).1
    rw [Config.code_of_mem_check_weigh hcheck, Rule.metadata_of_mem_check hcheck,
      config.message_weigh]
    exact ⟨hcode, fun _ => hmessage⟩
  · rcases hfound with ⟨-, rfl⟩ | ⟨a, -, hfound⟩
    · simp at hremark
    · obtain ⟨cmd, -, ds, hmem⟩ := Analyzer.command_of_mem_findings hfound hremark
      obtain ⟨d, -, rfl⟩ := ShellCommand.eq_of_mem_findings hmem
      refine ⟨d.oneLine_code, fun hnot => ?_⟩
      rw [Check.isRemark, Check.code, d.startsWith_code] at hnot
      cases hnot

/-- When the compact report of a lint has one line for each finding: its line breaks are as many as
the findings, and cutting at them gives the displays in order, exactly when no finding has a line
break in the name of its file and no remark has one in its message. -/
theorem compactReport_one_line_iff {σ : Type} (analyzer : Option (Analyzer (StateM σ)))
    (config : Config) (script : Script) (st : σ) {r : LintResult}
    (h : (((Catalog.linter analyzer config).lint script).run st).1 = .ok r) :
    (r.compactReport.toList.count '\n' = r.findings.length ↔
      ∀ c ∈ r.findings, OneLine c.filename ∧ (c.isRemark = true → OneLine c.metadata.message)) ∧
    (Text.splitOn r.compactReport '\n' = r.findings.map Check.display ++ [""] ↔
      ∀ c ∈ r.findings, OneLine c.filename ∧ (c.isRemark = true → OneLine c.metadata.message)) := by
  have hdisplays : (∀ c ∈ r.findings, OneLine c.display) ↔
      ∀ c ∈ r.findings, OneLine c.filename ∧ (c.isRemark = true → OneLine c.metadata.message) := by
    refine forall₂_congr fun c hc => ?_
    obtain ⟨hcode, hmessage⟩ := Catalog.oneLine_of_mem_findings h hc
    rw [Check.oneLine_display]
    cases hremark : c.isRemark with
    | false => simp [hcode, hmessage hremark]
    | true => simp [hcode]
  rw [r.count_compactReport_eq_length_iff, r.splitOn_compactReport_iff, hdisplays]
  exact ⟨Iff.rfl, Iff.rfl⟩

/-- A remark whose message has a line break, beside a finding of a rule. -/
theorem compactReport_one_line_remark :
    let script : Script := [⟨.run ["cd", "$x"], "Dockerfile", 2⟩]
    let analyzer : Analyzer (StateM Unit) :=
      .silent fun _ => pure (.ok [⟨2086, .info, "Double\nquote"⟩])
    ∃ r, (((Catalog.linter (some analyzer) {}).lint script).run ()).1 = .ok r ∧
      r.compactReport.toList.count '\n' ≠ r.findings.length := by
  intro script analyzer
  refine ⟨_, rfl, fun hcount => ?_⟩
  have hlines := (compactReport_one_line_iff (some analyzer) {} script () rfl).1.1 hcount
  have hremark := (hlines ⟨⟨"SC2086", .info, "Double\nquote"⟩, "Dockerfile", 2, false⟩
    (mem_sortByLine.2 (by decide +kernel))).2 (by decide)
  exact absurd hremark (by decide)

/-- A line break in the source of an instruction: one finding, two line breaks, and its display is
none of the lines. -/
theorem compactReport_broken_source :
    let script : Script := [⟨.workdir "/app", "Dockerfile", 1⟩, ⟨.workdir "app", "Docker\nfile", 2⟩]
    ∃ r, (((Catalog.linter (m := StateM Unit) none {}).lint script).run ()).1 = .ok r ∧
      r.findings.map Check.display = ["Docker\nfile:2: error [DL3000] Use absolute WORKDIR"] ∧
      r.compactReport.toList.count '\n' = 2 ∧
      Text.splitOn r.compactReport '\n' =
        ["Docker", "file:2: error [DL3000] Use absolute WORKDIR", ""] := by
  intro script
  exact ⟨_, rfl, by decide +kernel, by decide +kernel, by decide +kernel⟩

end DockerfileLint
