import DockerfileLint.Proofs.Distinctness

/-!
# The analyzer only adds

What an analyzer contributes to a report stands behind the findings of the rules on each line and
can be told by its codes: without the findings whose codes start with `SC` the report is the one of
the rules alone (`lint_only_adds`). An analyzer may keep a state, so its answer to a command depends
on the commands before (`Analyzer.answer`). A run over commands succeeds exactly when each of them
is answered (`Analyzer.findings_ok_iff`).
-/

namespace DockerfileLint

/-! ### Answers along a run -/

namespace Analyzer

variable {σ : Type} (a : Analyzer (StateM σ))

/-- The outcome of having one command judged, and the state after it. -/
def ask (cmd : ShellCommand) (st : σ) : Except AnalyzerError (List Diagnostic) × σ :=
  (a.analyze cmd.text).run ((a.announce cmd).run st).2

/-- The answer to a command after the analyzer was asked about others, from a state on. -/
def answer (st : σ) (before : List ShellCommand) (cmd : ShellCommand) :
    Except AnalyzerError (List Diagnostic) :=
  (a.ask cmd (before.foldl (fun st cmd => (a.ask cmd st).2) st)).1

/-- A run succeeds when its first command is answered and the run over the others, from the state
after it, succeeds. -/
theorem findings_cons_ok_iff (cmd : ShellCommand) (cmds : List ShellCommand) (st : σ) :
    (∃ found, ((a.findings (cmd :: cmds)).run st).1 = .ok found) ↔
      (∃ ds, (a.ask cmd st).1 = .ok ds) ∧
      ∃ found, ((a.findings cmds).run (a.ask cmd st).2).1 = .ok found := by
  rw [run_findings_cons]
  show (∃ found,
    Prod.fst (match a.ask cmd st with | (.error cause, st') => _ | (.ok ds, st') => _) = _) ↔ _
  rcases a.ask cmd st with ⟨cause | ds, st'⟩
  · simp
  · simp only [Except.ok.injEq, exists_eq', true_and]
    cases ((a.findings cmds).run st').1 <;> simp [Except.map]

/-- A run over commands succeeds exactly when each is answered in its turn. -/
theorem findings_ok_iff (cmds : List ShellCommand) (st : σ) :
    (∃ found, ((a.findings cmds).run st).1 = .ok found) ↔
      ∀ before cmd after, cmds = before ++ cmd :: after →
        ∃ ds, a.answer st before cmd = .ok ds := by
  induction cmds generalizing st with
  | nil => simpa using ⟨[], rfl⟩
  | cons first cmds ih =>
    rw [findings_cons_ok_iff, ih]
    constructor
    · rintro ⟨hfirst, hrest⟩ before cmd after heq
      cases before with
      | nil =>
        cases heq
        exact hfirst
      | cons _ before =>
        cases heq
        exact hrest before cmd after rfl
    · intro hall
      refine ⟨hall [] first cmds rfl, fun before cmd after heq => ?_⟩
      exact hall (first :: before) cmd after (by rw [heq]; rfl)

end Analyzer

/-! ### Reports of rules and remarks -/

theorem sortByLine_filter (p : Check → Bool) (checks : List Check) :
    sortByLine (checks.filter p) = (sortByLine checks).filter p := by
  have hline : ∀ c c', Option.guard p c = some c' → c'.line = c.line := by
    intro c c' h
    rw [(Option.guard_eq_some_iff.1 h).1]
  have hfilter : List.filterMap (Option.guard p) = List.filter p := List.filterMap_eq_filter
  rw [← hfilter, sortByLine_filterMap hline]

/-- Whether the code of a check is one of the analyzer. -/
def Check.isRemark (c : Check) : Bool := Text.startsWith c.code "SC"

namespace Linter

section Reports

variable (config : Config) {checks found : List Check}

/-- A report without the remarks is the report of the other checks. -/
theorem filter_report_append (hchecks : ∀ c ∈ checks, c.isRemark = false)
    (hfound : ∀ c ∈ found, c.isRemark = true) :
    (report config (checks ++ found)).findings.filter (fun c => !c.isRemark) =
      (report config checks).findings := by
  have hall : checks.filter (fun c => !c.isRemark) = checks :=
    List.filter_eq_self.2 fun c hc => by simp [hchecks c hc]
  have hnone : found.filter (fun c => !c.isRemark) = [] :=
    List.filter_eq_nil_iff.2 fun c hc => by simp [hfound c hc]
  rw [findings_report, findings_report, ← sortByLine_filter, List.filter_comm, List.filter_append,
    hall, hnone, List.append_nil]

/-- On each line of a report the checks that come later in the evaluation stand behind. -/
theorem atLine_report_append (n : Int64) :
    atLine n (report config (checks ++ found)).findings =
      atLine n (report config checks).findings ++ (atLine n found).filter config.reports := by
  rw [findings_report, findings_report, atLine_sortByLine, atLine_sortByLine, List.filter_append,
    atLine_append, atLine_filter n _ found]

end Reports

section Runs

variable {σ : Type} {l : Linter (StateM σ)} (script : Script) (st : σ)

theorem run_lint_of_analyzer_none (h : l.analyzer = none) :
    ((l.lint script).run st).1 = .ok (report l.config (l.ruleChecks script)) := by
  rw [run_lint_fst, evaluate_of_analyzer_none h]
  rfl

theorem run_lint_of_analyzer_some {a : Analyzer (StateM σ)} (h : l.analyzer = some a) :
    ((l.lint script).run st).1 =
      ((a.checks script).run st).1.map fun found =>
        report l.config (l.ruleChecks script ++ found) := by
  rw [run_lint_fst, evaluate_of_analyzer_some h]
  show (((a.checks script).run st).1.map _).map _ = _
  cases ((a.checks script).run st).1 <;> rfl

end Runs

end Linter

/-- The checks of built-in rules are no remarks. -/
theorem Catalog.isRemark_of_mem_ruleChecks {m : Type → Type} {analyzer : Option (Analyzer m)}
    {config : Config} {script : Script} {c : Check}
    (hc : c ∈ (linter analyzer config).ruleChecks script) : c.isRemark = false := by
  rw [← Bool.not_eq_true]
  exact fun h => not_startsWith_of_startsWith h (startsWith_of_mem_ruleChecks analyzer config hc)

/-- The analyzer only adds. Under any configuration, an analyzer that answers every command of a
script in its turn leaves the findings of the rules as they are without it, in the same order, and
puts its remarks behind them on each line. One that fails on some command makes linting fail,
whatever the rules found. -/
theorem lint_only_adds {σ : Type} (a : Analyzer (StateM σ)) (config : Config) (script : Script)
    (st : σ) :
    ((∀ before cmd after, shellCommands script = before ++ cmd :: after →
      ∃ ds, a.answer st before cmd = .ok ds) →
      ∃ r alone, (((Catalog.linter (some a) config).lint script).run st).1 = .ok r ∧
        (((Catalog.linter (m := StateM σ) none config).lint script).run st).1 = .ok alone ∧
        r.findings.filter (fun c => !c.isRemark) = alone.findings ∧
        ∀ n, ∃ remarks, atLine n r.findings = atLine n alone.findings ++ remarks ∧
          ∀ c ∈ remarks, c.isRemark = true) ∧
    ∀ before cmd after cause, shellCommands script = before ++ cmd :: after →
      a.answer st before cmd = .error cause →
      ∃ e, (((Catalog.linter (some a) config).lint script).run st).1 = .error e := by
  have hanswered := a.findings_ok_iff (shellCommands script) st
  have hlint := Linter.run_lint_of_analyzer_some (l := Catalog.linter (some a) config) script st rfl
  constructor
  · intro hall
    obtain ⟨found, hfound⟩ := hanswered.2 hall
    have hrules : ∀ c ∈ (Catalog.linter (some a) config).ruleChecks script, c.isRemark = false :=
      fun c => Catalog.isRemark_of_mem_ruleChecks
    have hremarks : ∀ c ∈ found, c.isRemark = true :=
      fun c => Analyzer.startsWith_of_mem_checks hfound
    have hfilter := Linter.filter_report_append config hrules hremarks
    rw [Analyzer.checks, hfound] at hlint
    refine ⟨_, _, hlint, Linter.run_lint_of_analyzer_none script st rfl, hfilter, fun n => ?_⟩
    refine ⟨_, Linter.atLine_report_append config n, fun c hc => ?_⟩
    exact hremarks c (mem_atLine.1 (List.mem_filter.1 hc).1).1
  · intro before cmd after cause heq hcause
    rw [hlint]
    cases hfound : ((a.checks script).run st).1 with
    | error e => exact ⟨e, rfl⟩
    | ok found =>
      obtain ⟨ds, hds⟩ := hanswered.1 ⟨found, hfound⟩ before cmd after heq
      rw [hcause] at hds
      cases hds

/-- An analyzer that answers two commands and fails on a third, on a script whose two commands share
a line with a finding, one of them under `ONBUILD`. -/
theorem lint_only_adds_counting :
    let script : Script :=
      [⟨.run ["cd", "/tmp"], "Dockerfile", 2⟩, ⟨.onbuild (.run ["sudo", "ls"]), "Dockerfile", 2⟩]
    let a : Analyzer (StateM Nat) := .silent fun _ n =>
      (if n < 2 then .ok [⟨.ofNat n, .info, "remark"⟩] else .error (.malformed "tired"), n + 1)
    (∃ r alone, (((Catalog.linter (some a) {}).lint script).run 0).1 = .ok r ∧
        (((Catalog.linter (m := StateM Nat) none {}).lint script).run 0).1 = .ok alone ∧
        r.findings.filter (fun c => !c.isRemark) = alone.findings ∧
        ∀ n, ∃ remarks, atLine n r.findings = atLine n alone.findings ++ remarks ∧
          ∀ c ∈ remarks, c.isRemark = true) ∧
      ∃ e, (((Catalog.linter (some a) {}).lint script).run 1).1 = .error e := by
  intro script a
  have hcmds : shellCommands script =
      [⟨"Dockerfile", 2, "cd /tmp"⟩, ⟨"Dockerfile", 2, "sudo ls"⟩] := by decide
  refine ⟨(lint_only_adds a {} script 0).1 ?_, ?_⟩
  · intro before cmd after h
    rw [hcmds] at h
    rcases before with _ | ⟨first, _ | ⟨second, before⟩⟩
    · cases h
      exact ⟨_, rfl⟩
    · cases h
      exact ⟨_, rfl⟩
    · simp at h
  · exact (lint_only_adds a {} script 1).2 [⟨"Dockerfile", 2, "cd /tmp"⟩]
      ⟨"Dockerfile", 2, "sudo ls"⟩ [] _ hcmds rfl

end DockerfileLint
