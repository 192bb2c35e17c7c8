import DockerfileLint.Linter
import DockerfileLint.Proofs.LineOrder

/-!
# Evaluation and linting

Where checks come from and what linting makes of them. A check of a whole-file rule stands at
`wholeFileLine`, every other check at the line of an instruction. Linting runs the same analyzer on
the same commands as evaluation (`Linter.lint_eq_map`), so that a statement about a report is one
about the checks and about sorting.
-/

namespace DockerfileLint

/-! ### Checks of rules -/

/-- A check of an instruction rule stands at an instruction. -/
theorem Rule.line_of_mem_check {r : Rule} (hr : r.isWholeFile = false) {script : Script} {c : Check}
    (hc : c ∈ r.check script) : ∃ p ∈ script, c.line = p.line := by
  unfold Rule.isWholeFile at hr
  unfold Rule.check at hc
  split at hc
  · obtain ⟨p, hp, rfl⟩ := List.mem_map.1 hc
    exact ⟨p, hp, rfl⟩
  · rename_i htest
    simp [htest] at hr

/-- A check of a whole-file rule is on the file as a whole. -/
theorem Rule.line_of_mem_check_whole {r : Rule} (hr : r.isWholeFile = true) {script : Script}
    {c : Check} (hc : c ∈ r.check script) : c.line = wholeFileLine := by
  unfold Rule.isWholeFile at hr
  unfold Rule.check at hc
  split at hc
  · rename_i htest
    simp [htest] at hr
  · rw [List.mem_singleton.1 hc]

/-! ### Checks of the analyzer -/

theorem mem_distinct {α : Type} [DecidableEq α] {x : α} {xs : List α} :
    x ∈ distinct xs ↔ x ∈ xs := by
  induction xs with
  | nil => rfl
  | cons y ys ih =>
    rw [distinct, List.mem_cons, List.mem_cons, List.mem_filter, ih]
    by_cases h : x = y <;> simp [h]

theorem Diagnostic.startsWith_code (d : Diagnostic) :
    Text.startsWith d.metadata.code "SC" = true := by
  refine List.isPrefixOf_iff_prefix.2 ?_
  show "SC".toList <+: ("SC" ++ Decimal.text d.code.toNat).toList
  rw [String.toList_append]
  exact List.prefix_append ..

/-- A check of the analyzer failed, stands at its command and has the metadata of a remark. -/
theorem ShellCommand.eq_of_mem_findings {cmd : ShellCommand} {ds : List Diagnostic} {c : Check}
    (hc : c ∈ cmd.findings ds) : ∃ d ∈ ds, c = ⟨d.metadata, cmd.source, cmd.line, false⟩ := by
  obtain ⟨metadata, hm, rfl⟩ := List.mem_map.1 hc
  obtain ⟨d, hd, rfl⟩ := List.mem_map.1 (mem_distinct.1 hm)
  exact ⟨d, hd, rfl⟩

/-- A command stands at an instruction of its script. -/
theorem exists_of_mem_shellCommands {script : Script} {cmd : ShellCommand}
    (h : cmd ∈ shellCommands script) :
    ∃ p ∈ script, cmd.source = p.source ∧ cmd.line = p.line := by
  obtain ⟨p, hp, hcmd⟩ := List.mem_filterMap.1 h
  obtain ⟨args, -, rfl⟩ := Option.map_eq_some_iff.1 hcmd
  exact ⟨p, hp, rfl, rfl⟩

/-! ### Evaluation and linting in any monad -/

namespace Linter

variable {m : Type → Type} [Monad m]

theorem evaluate_of_analyzer_none {l : Linter m} (h : l.analyzer = none) (script : Script) :
    l.evaluate script = pure (.ok (l.ruleChecks script)) := by
  rw [evaluate, h]

theorem evaluate_of_analyzer_some [LawfulMonad m] {l : Linter m} {a : Analyzer m}
    (h : l.analyzer = some a) (script : Script) :
    l.evaluate script = Except.map (l.ruleChecks script ++ ·) <$> a.checks script := by
  rw [evaluate, h, map_eq_pure_bind]
  show (a.checks script >>= _) = _
  congr 1
  funext found
  cases found <;> rfl

/-- Linting evaluates and makes a report of the checks. -/
theorem lint_eq_map [LawfulMonad m] (l : Linter m) (script : Script) :
    l.lint script = Except.map (report l.config) <$> l.evaluate script := by
  rw [lint, map_eq_pure_bind]
  congr 1
  funext checks
  cases checks <;> rfl

end Linter

/-! ### Runs of an analyzer with a state -/

section Runs

variable {σ : Type}

/-- One command of a run: the analyzer is told of it, answers it, and goes on from the state it is
then in. -/
theorem Analyzer.run_findings_cons (a : Analyzer (StateM σ)) (cmd : ShellCommand)
    (cmds : List ShellCommand) (st : σ) :
    (a.findings (cmd :: cmds)).run st =
      match (a.analyze cmd.text).run ((a.announce cmd).run st).2 with
      | (.error cause, st') => (.error ⟨cmd.source, cmd.line, cause⟩, st')
      | (.ok ds, st') =>
        (((a.findings cmds).run st').1.map (cmd.findings ds ++ ·),
          ((a.findings cmds).run st').2) := by
  rw [findings, StateT.run_bind]
  show (a.analyze cmd.text >>= _).run ((a.announce cmd).run st).2 = _
  rw [StateT.run_bind]
  rcases (a.analyze cmd.text).run ((a.announce cmd).run st).2 with ⟨cause | ds, st'⟩
  · rfl
  · show (a.findings cmds >>= _).run st' =
      (((a.findings cmds).run st').1.map (cmd.findings ds ++ ·), _)
    rw [StateT.run_bind]
    rcases (a.findings cmds).run st' with ⟨e | more, st''⟩ <;> rfl

/-- A run with success on a command and more: remarks on the command, then what the others give from
some state on. -/
theorem Analyzer.exists_of_run_findings_cons {a : Analyzer (StateM σ)} {cmd : ShellCommand}
    {cmds : List ShellCommand} {st : σ} {found : List Check}
    (h : ((a.findings (cmd :: cmds)).run st).1 = .ok found) :
    ∃ ds st' more, ((a.findings cmds).run st').1 = .ok more ∧ found = cmd.findings ds ++ more := by
  rw [run_findings_cons] at h
  split at h
  · cases h
  · rename_i ds st' _
    cases hrest : ((a.findings cmds).run st').1 with
    | error e =>
      rw [hrest] at h
      cases h
    | ok more =>
      rw [hrest] at h
      cases h
      exact ⟨ds, st', more, hrest, rfl⟩

/-- Every check of a run is one at a command of the run. -/
theorem Analyzer.command_of_mem_findings {a : Analyzer (StateM σ)} {cmds : List ShellCommand}
    {st : σ} {found : List Check} (h : ((a.findings cmds).run st).1 = .ok found) {c : Check}
    (hc : c ∈ found) :
    ∃ cmd ∈ cmds, ∃ ds, c ∈ cmd.findings ds := by
  induction cmds generalizing st found with
  | nil =>
    cases h
    simp at hc
  | cons cmd cmds ih =>
    obtain ⟨ds, st', more, hrest, rfl⟩ := exists_of_run_findings_cons h
    rcases List.mem_append.1 hc with hc | hc
    · exact ⟨cmd, List.mem_cons_self .., ds, hc⟩
    · obtain ⟨cmd', hcmd', hfound⟩ := ih hrest hc
      exact ⟨cmd', List.mem_cons_of_mem _ hcmd', hfound⟩

/-- The checks of an evaluation: those of the rules, then those of the analyzer if there is one. -/
theorem Linter.evaluate_eq_append_checks {l : Linter (StateM σ)} {script : Script} {st : σ}
    {checks : List Check} (h : ((l.evaluate script).run st).1 = .ok checks) :
    ∃ found, checks = l.ruleChecks script ++ found ∧
      (l.analyzer = none ∧ found = [] ∨
        ∃ a, l.analyzer = some a ∧ ((a.checks script).run st).1 = .ok found) := by
  cases ha : l.analyzer with
  | none =>
    rw [evaluate_of_analyzer_none ha] at h
    cases h
    exact ⟨[], by simp, .inl ⟨rfl, rfl⟩⟩
  | some a =>
    rw [evaluate_of_analyzer_some ha] at h
    change ((a.checks script).run st).1.map (l.ruleChecks script ++ ·) = .ok checks at h
    cases hfound : ((a.checks script).run st).1 with
    | error e =>
      rw [hfound] at h
      cases h
    | ok found =>
      rw [hfound] at h
      cases h
      exact ⟨found, rfl, .inr ⟨a, rfl, hfound⟩⟩

/-- The checks of an evaluation: those of the rules, then some at instructions of the script. -/
theorem Linter.evaluate_eq_append {l : Linter (StateM σ)} {script : Script} {st : σ}
    {checks : List Check} (h : ((l.evaluate script).run st).1 = .ok checks) :
    ∃ found, checks = l.ruleChecks script ++ found ∧
      ∀ c ∈ found, ∃ p ∈ script, c.line = p.line := by
  obtain ⟨found, rfl, ⟨-, rfl⟩ | ⟨a, -, hfound⟩⟩ := evaluate_eq_append_checks h
  · exact ⟨[], rfl, by simp⟩
  · refine ⟨found, rfl, fun c hc => ?_⟩
    obtain ⟨cmd, hcmd, ds, hmem⟩ := Analyzer.command_of_mem_findings hfound hc
    obtain ⟨d, -, rfl⟩ := ShellCommand.eq_of_mem_findings hmem
    obtain ⟨p, hp, -, hline⟩ := exists_of_mem_shellCommands hcmd
    exact ⟨p, hp, hline⟩

theorem Linter.run_lint_fst (l : Linter (StateM σ)) (script : Script) (st : σ) :
    ((l.lint script).run st).1 = ((l.evaluate script).run st).1.map (report l.config) := by
  rw [lint_eq_map]
  rfl

theorem Linter.run_lint_snd (l : Linter (StateM σ)) (script : Script) (st : σ) :
    ((l.lint script).run st).2 = ((l.evaluate script).run st).2 := by
  rw [lint_eq_map]
  rfl

/-- A lint with success reports the checks of an evaluation with success. -/
theorem Linter.exists_of_run_lint {l : Linter (StateM σ)} {script : Script} {st : σ}
    {r : LintResult} (h : ((l.lint script).run st).1 = .ok r) :
    ∃ checks, ((l.evaluate script).run st).1 = .ok checks ∧ r = report l.config checks := by
  rw [run_lint_fst] at h
  cases hchecks : ((l.evaluate script).run st).1 with
  | error e =>
    rw [hchecks] at h
    cases h
  | ok checks =>
    rw [hchecks] at h
    cases h
    exact ⟨checks, rfl, rfl⟩

end Runs

/-! ### Analyzers that are functions of the command -/

namespace Analyzer

/-- Commands that are all answered, by an analyzer that is told of none, give the findings at each
in turn. -/
theorem findings_of_forall {m : Type → Type} [Monad m] [LawfulMonad m] {a : Analyzer m}
    (hsilent : ∀ cmd, a.announce cmd = pure ()) {answers : String → List Diagnostic}
    {cmds : List ShellCommand}
    (h : ∀ cmd ∈ cmds, a.analyze cmd.text = pure (.ok (answers cmd.text))) :
    a.findings cmds = pure (.ok (cmds.flatMap fun cmd => cmd.findings (answers cmd.text))) := by
  induction cmds with
  | nil => rfl
  | cons cmd cmds ih =>
    rw [findings, hsilent, pure_bind, h cmd (List.mem_cons_self ..), pure_bind]
    show (a.findings cmds >>= _) = _
    rw [ih fun c hc => h c (List.mem_cons_of_mem _ hc), pure_bind]
    rfl

/-- The analyzer answers every command of the script. -/
def Answers (a : Analyzer Id) (script : Script) : Prop :=
  ∀ cmd ∈ shellCommands script, ∃ ds, a.analyze cmd.text = .ok ds

/-- The remarks on a command, none where the analyzer fails. -/
def remarks (a : Analyzer Id) (text : String) : List Diagnostic :=
  match (a.analyze text : Except AnalyzerError (List Diagnostic)) with
  | .ok ds => ds
  | .error _ => []

/-- The findings at the commands of a script, none where the analyzer fails. -/
def remarkChecks (a : Analyzer Id) (script : Script) : List Check :=
  (shellCommands script).flatMap fun cmd => cmd.findings (a.remarks cmd.text)

theorem checks_of_answers {a : Analyzer Id} {script : Script} (h : a.Answers script) :
    a.checks script = .ok (a.remarkChecks script) := by
  refine findings_of_forall (fun _ => rfl) fun cmd hcmd => ?_
  obtain ⟨ds, hds⟩ := h cmd hcmd
  rw [remarks, hds]
  rfl

end Analyzer

/-! ### Reports -/

/-- Whether a report under the configuration shows a check: it failed and its code is not
ignored. -/
def Config.reports (config : Config) (c : Check) : Bool :=
  decide (c.success = false ∧ c.code ∉ config.ignored)

namespace Linter

/-- All checks under an analyzer that answers every command. -/
def allChecks (l : Linter Id) (script : Script) : List Check :=
  l.ruleChecks script ++ l.analyzer.toList.flatMap fun a => a.remarkChecks script

/-- Where the analyzer answers every command, linting succeeds with a report of all checks. -/
theorem lint_of_answers {l : Linter Id} {script : Script} (h : ∀ a ∈ l.analyzer, a.Answers script) :
    l.lint script = .ok (report l.config (l.allChecks script)) := by
  rw [lint_eq_map]
  unfold allChecks
  cases ha : l.analyzer with
  | none =>
    rw [evaluate_of_analyzer_none ha, Option.toList_none, List.flatMap_nil, List.append_nil]
    rfl
  | some a =>
    rw [evaluate_of_analyzer_some ha, a.checks_of_answers (h a ha), Option.toList_some,
      List.flatMap_singleton]
    rfl

theorem findings_report (config : Config) (checks : List Check) :
    (report config checks).findings = sortByLine (checks.filter config.reports) := by
  have hp : (fun c : Check => c.isFinding && !config.isIgnored c.code) = config.reports := by
    funext c
    simp [Check.isFinding, Config.isIgnored, Config.reports]
  rw [report, hp]

/-- Checks that agree line by line have the same report. -/
theorem report_congr {config : Config} {checks checks' : List Check}
    (h : ∀ n, atLine n checks = atLine n checks') :
    report config checks = report config checks' := by
  have hfindings : (report config checks).findings = (report config checks').findings := by
    rw [findings_report, findings_report]
    refine sortByLine_congr fun n => ?_
    rw [atLine_filter, atLine_filter, h]
  exact congrArg (LintResult.mk · 1) hfindings

/-- The checks of the rules that judge the file as a whole. -/
def wholeFileChecks {m : Type → Type} (l : Linter m) (script : Script) : List Check :=
  (l.rules.filter Rule.isWholeFile).flatMap fun rule => rule.check script

/-- Where no instruction stands at the line of whole-file checks, the checks at that line are those
of the whole-file rules. -/
theorem atLine_ruleChecks_wholeFileLine {m : Type → Type} (l : Linter m) {script : Script}
    (h : ∀ p ∈ script, p.line ≠ wholeFileLine) :
    atLine wholeFileLine (l.ruleChecks script) = l.wholeFileChecks script := by
  unfold ruleChecks wholeFileChecks
  rw [atLine_flatMap]
  induction l.rules with
  | nil => rfl
  | cons rule rules ih =>
    rw [List.flatMap_cons, ih]
    cases hr : rule.isWholeFile with
    | false =>
      have hnone : atLine wholeFileLine (rule.check script) = [] := by
        refine List.filter_eq_nil_iff.2 fun c hc => ?_
        obtain ⟨p, hp, hline⟩ := Rule.line_of_mem_check hr hc
        simpa [hline] using h p hp
      rw [hnone, List.filter_cons_of_neg (by simp [hr]), List.nil_append]
    | true =>
      have hall : atLine wholeFileLine (rule.check script) = rule.check script :=
        List.filter_eq_self.2 fun c hc => by simpa using Rule.line_of_mem_check_whole hr hc
      rw [hall, List.filter_cons_of_pos hr, List.flatMap_cons]

/-- A check of a rule is on the whole file or at an instruction. -/
theorem line_of_mem_ruleChecks {m : Type → Type} {l : Linter m} {script : Script} {c : Check}
    (hc : c ∈ l.ruleChecks script) : c.line = wholeFileLine ∨ ∃ p ∈ script, c.line = p.line := by
  obtain ⟨rule, -, hrule⟩ := List.mem_flatMap.1 hc
  cases hr : rule.isWholeFile with
  | true => exact .inl (Rule.line_of_mem_check_whole hr hrule)
  | false => exact .inr (Rule.line_of_mem_check hr hrule)

/-- Where lines count from one, a report starts with the findings of the whole-file rules, and no
other finding is on the whole file. -/
theorem wholeFile_report {m : Type → Type} (l : Linter m) {script : Script} {found : List Check}
    (hlines : ∀ p ∈ script, 1 ≤ p.line) (hfound : ∀ c ∈ found, ∃ p ∈ script, c.line = p.line) :
    (l.wholeFileChecks script).filter l.config.reports <+:
      (report l.config (l.ruleChecks script ++ found)).findings ∧
    (report l.config (l.ruleChecks script ++ found)).findings.filter Check.isWholeFile =
      (l.wholeFileChecks script).filter l.config.reports := by
  have hne : ∀ p ∈ script, p.line ≠ wholeFileLine := by
    intro p hp h
    have := hlines p hp
    rw [h] at this
    exact absurd this (by decide)
  have hat : ∀ p ∈ script, wholeFileLine ≤ p.line :=
    fun p hp => Int64.le_trans (by decide) (hlines p hp)
  have hleast : ∀ c ∈ l.ruleChecks script ++ found, wholeFileLine ≤ c.line := by
    intro c hc
    have hplace : c.line = wholeFileLine ∨ ∃ p ∈ script, c.line = p.line := by
      rcases List.mem_append.1 hc with hc | hc
      · exact line_of_mem_ruleChecks hc
      · exact .inr (hfound c hc)
    rcases hplace with hline | ⟨p, hp, hline⟩ <;> rw [hline]
    · exact Int64.le_refl _
    · exact hat p hp
  have hnone : atLine wholeFileLine found = [] := by
    refine List.filter_eq_nil_iff.2 fun c hc => ?_
    obtain ⟨p, hp, hline⟩ := hfound c hc
    simpa [hline] using hne p hp
  rw [findings_report]
  have hwhole : atLine wholeFileLine
      (sortByLine ((l.ruleChecks script ++ found).filter l.config.reports)) =
      (l.wholeFileChecks script).filter l.config.reports := by
    rw [atLine_sortByLine, atLine_filter, atLine_append, hnone, List.append_nil,
      atLine_ruleChecks_wholeFileLine l hne]
  refine ⟨?_, hwhole⟩
  -- no check is at a line before that of the whole file
  rw [← hwhole]
  refine ⟨_, ((byLine_sortByLine _).eq_atLine_append fun c hc => ?_).symm⟩
  exact hleast c ((List.mem_filter.1 (mem_sortByLine.1 hc)).1)

/-- Linting fails as evaluation fails. Otherwise the findings are the failed checks whose codes are
not ignored: their lines do not decrease, and on every line they stand in the order of evaluation.
Where lines count from one, the findings of the whole-file rules come first and are the only ones on
the whole file. The analyzer may keep a state; linting leaves it as evaluation does. -/
theorem lint_stable_sort_of_evaluate {σ : Type} (l : Linter (StateM σ)) (script : Script) (st : σ) :
    ((l.lint script).run st).2 = ((l.evaluate script).run st).2 ∧
    (∀ e, ((l.lint script).run st).1 = .error e ↔ ((l.evaluate script).run st).1 = .error e) ∧
    ∀ checks, ((l.evaluate script).run st).1 = .ok checks →
      ∃ r, ((l.lint script).run st).1 = .ok r ∧ r.scriptsChecked = 1 ∧ ByLine r.findings ∧
        (∀ n, atLine n r.findings = (atLine n checks).filter l.config.reports) ∧
        ((∀ p ∈ script, 1 ≤ p.line) →
          (l.wholeFileChecks script).filter l.config.reports <+: r.findings ∧
          r.findings.filter Check.isWholeFile =
            (l.wholeFileChecks script).filter l.config.reports) := by
  refine ⟨run_lint_snd l script st, fun e => ?_, fun checks hchecks => ?_⟩
  · rw [run_lint_fst]
    cases ((l.evaluate script).run st).1 <;> simp [Except.map]
  · refine ⟨report l.config checks, ?_, rfl, ?_, fun n => ?_, fun hlines => ?_⟩
    · rw [run_lint_fst, hchecks]
      rfl
    · rw [findings_report]
      exact byLine_sortByLine _
    · rw [findings_report, atLine_sortByLine, atLine_filter]
    · obtain ⟨found, rfl, hfound⟩ := evaluate_eq_append hchecks
      exact wholeFile_report l hlines hfound

end Linter

end DockerfileLint
