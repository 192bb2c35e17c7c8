import DockerfileLint.Proofs.Catalog
import DockerfileLint.Proofs.Linting

/-!
# Configuration is post-processing

A configuration drops and reweighs rules before they run, and suppresses codes after. Both amount to
one pass over the findings of the unconfigured linter: `Config.revise` says what becomes of a single
finding, and `lint_configured` that linting under a configuration is linting without one followed by
that pass, whatever the analyzer does.

The argument has three parts, which meet in `Linter.report`: dropping and reweighing a rule is a
pass over its checks (`filterMap_ruleChecks`), the checks of the analyzer are fixed by that pass
(`Analyzer.map_findings_of_forall`), and the pass may come after sorting (`postprocess_report`).
-/

namespace DockerfileLint

/-! ### What becomes of a finding -/

/-- The entry of a rule: the one under its code or, only when there is none, the one under its
name. -/
def Config.entryFor? (config : Config) (r : Rule) : Option RuleSetting :=
  (config.rules.get? r.code).or (config.rules.get? r.name)

/-- The finding under the entry of its rule: gone when the entry switches the rule off, else with
the severity of the entry if it has one. -/
def RuleSetting.revise (entry : RuleSetting) (c : Check) : Option Check :=
  if entry.enabled = some false then none
  else some { c with metadata.severity := entry.severity.getD c.metadata.severity }

namespace Config

/-- The finding under the settings of rules; one that no built-in rule has the code of stays as it
is. -/
def reviseByRule (config : Config) (c : Check) : Option Check :=
  match (Catalog.ruleOf? c).bind config.entryFor? with
  | some entry => entry.revise c
  | none => some c

/-- What becomes of a finding: gone when its code is ignored, else under the settings of rules. -/
def revise (config : Config) (c : Check) : Option Check :=
  if c.code ∈ config.ignored then none else config.reviseByRule c

/-- The result with every finding revised. -/
def postprocess (config : Config) (r : LintResult) : LintResult :=
  { r with findings := r.findings.filterMap config.revise }

/-- Nothing but the severity of a finding changes. -/
theorem eq_of_reviseByRule {config : Config} {c c' : Check} (h : config.reviseByRule c = some c') :
    c' = { c with metadata.severity := c'.metadata.severity } := by
  unfold reviseByRule at h
  split at h
  · unfold RuleSetting.revise at h
    split at h
    · cases h
    · cases h
      rfl
  · cases h
    rfl

theorem eq_of_revise {config : Config} {c c' : Check} (h : config.revise c = some c') :
    c' = { c with metadata.severity := c'.metadata.severity } := by
  unfold revise at h
  split at h
  · cases h
  · exact eq_of_reviseByRule h

theorem line_of_revise (config : Config) (c c' : Check) (h : config.revise c = some c') :
    c'.line = c.line := by
  rw [eq_of_revise h]

theorem reviseByRule_of_startsWith (config : Config) {c : Check}
    (h : Text.startsWith c.code "SC" = true) :
    config.reviseByRule c = some c := by
  rw [reviseByRule, Catalog.ruleOf?_of_startsWith h]
  rfl

end Config

/-! ### Rules under a configuration -/

theorem Rule.check_withSeverity (r : Rule) (severity : Severity) (script : Script) :
    (r.withSeverity severity).check script =
      (r.check script).map fun c => { c with metadata.severity := severity } := by
  rcases r with ⟨name, metadata, holds | holds⟩
  · simp [withSeverity, check, Metadata.withSeverity]
  · simp [withSeverity, check, Metadata.withSeverity]

namespace Config

theorem setting?_eq_entryFor? (config : Config) (r : Rule) :
    config.setting? r.code r.name = config.entryFor? r := by
  unfold setting? entryFor?
  cases config.rules.get? r.code <;> rfl

/-- Dropping and reweighing a built-in rule is a pass over its checks. -/
theorem filterMap_check (config : Config) {r : Rule} (hr : r ∈ Catalog.all) (script : Script) :
    (r.check script).filterMap config.reviseByRule =
      if config.runs r then (config.weigh r).check script else [] := by
  have hrule : ∀ c ∈ r.check script, config.reviseByRule c =
      match config.entryFor? r with
      | some entry => entry.revise c
      | none => some c := by
    intro c hc
    rw [reviseByRule, Catalog.ruleOf?_of_mem_check hr hc]
    rfl
  rw [List.filterMap_congr hrule]
  unfold runs isEnabled weigh severity?
  rw [setting?_eq_entryFor?]
  -- both sides now depend on the entry only
  rcases config.entryFor? r with _ | ⟨enabled, severity⟩
  · simp
  · rcases enabled with _ | _ | _ <;> rcases severity with _ | severity <;>
      simp [RuleSetting.revise, Rule.check_withSeverity]

/-- Choosing among built-in rules is a pass over their checks. -/
theorem filterMap_flatMap_check (config : Config) {rules : List Rule}
    (hrules : ∀ r ∈ rules, r ∈ Catalog.all) (script : Script) :
    (rules.flatMap fun r => r.check script).filterMap config.reviseByRule =
      (config.select rules).flatMap fun r => r.check script := by
  induction rules with
  | nil => rfl
  | cons r rules ih =>
    rw [List.flatMap_cons, List.filterMap_append,
      filterMap_check config (hrules r (List.mem_cons_self ..)),
      ih fun q hq => hrules q (List.mem_cons_of_mem _ hq)]
    unfold select
    cases hruns : config.runs r with
    | false => simp [hruns]
    | true => simp [hruns]

/-- The default configuration chooses every rule as it is. -/
@[simp] theorem select_default (rules : List Rule) : ({} : Config).select rules = rules := by
  have hnone : ∀ r : Rule, ({} : Config).setting? r.code r.name = none := fun _ => rfl
  have hruns : ∀ r : Rule, ({} : Config).runs r = true := fun r => by rw [runs, isEnabled, hnone]
  have hweigh : ∀ r : Rule, ({} : Config).weigh r = r :=
    fun r => by rw [weigh, severity?, hnone]; rfl
  rw [select, List.filter_eq_self.2 fun r _ => hruns r, funext hweigh]
  exact List.map_id' rules

theorem filterMap_ruleChecks {m : Type → Type} (config : Config) (analyzer : Option (Analyzer m))
    (script : Script) :
    ((Catalog.linter analyzer {}).ruleChecks script).filterMap config.reviseByRule =
      (Catalog.linter analyzer config).ruleChecks script := by
  show ((({} : Config).select Catalog.all).flatMap fun r => r.check script).filterMap
    config.reviseByRule = _
  rw [select_default]
  exact filterMap_flatMap_check config (fun r hr => hr) script

/-! ### Reports under a configuration -/

/-- Revising a report is revising the checks and reporting them under the configuration. -/
theorem postprocess_report (config : Config) (checks : List Check) :
    config.postprocess (Linter.report {} checks) =
      Linter.report config (checks.filterMap config.reviseByRule) := by
  have hpointwise : ∀ c : Check,
      (if ({} : Config).reports c then config.revise c else none) =
        (config.reviseByRule c).filter config.reports := by
    intro c
    cases hrev : config.reviseByRule c with
    | none => simp [revise, hrev]
    | some c' =>
      -- a revised check keeps its code and its outcome, so it is reported iff it would have been
      -- before
      have heq := eq_of_reviseByRule hrev
      have hcode : c'.code = c.code := by rw [heq]; rfl
      have hsuccess : c'.success = c.success := by rw [heq]
      by_cases hs : c.success = false <;> by_cases hi : c.code ∈ config.ignored <;>
        simp [reports, revise, hrev, hcode, hsuccess, hs, hi, Option.filter]
  have hfindings : (Linter.report {} checks).findings.filterMap config.revise =
      (Linter.report config (checks.filterMap config.reviseByRule)).findings := by
    rw [Linter.findings_report, Linter.findings_report,
      ← sortByLine_filterMap config.line_of_revise, List.filterMap_filter, List.filter_filterMap,
      funext hpointwise]
  exact congrArg (LintResult.mk · 1) hfindings

end Config

/-! ### The analyzer under a configuration -/

section Monadic

variable {m : Type → Type} [Monad m] [LawfulMonad m]

/-- A pass that leaves the checks at every command as they are leaves the outcome of the analyzer as
it is. -/
theorem Analyzer.map_findings_of_forall (a : Analyzer m) {f : Check → Option Check}
    (hf : ∀ (cmd : ShellCommand) ds, (cmd.findings ds).filterMap f = cmd.findings ds)
    (cmds : List ShellCommand) :
    Except.map (List.filterMap f) <$> a.findings cmds = a.findings cmds := by
  induction cmds with
  | nil => rw [findings, map_pure]; rfl
  | cons cmd cmds ih =>
    rw [findings, map_bind]
    congr 1
    funext _
    rw [map_bind]
    congr 1
    funext answer
    cases answer with
    | error cause => rw [map_pure]; rfl
    | ok ds =>
      show Except.map (List.filterMap f) <$> (a.findings cmds >>= _) = a.findings cmds >>= _
      -- the rest of the run is fixed by the pass, so the right-hand side may be taken after it as
      -- well
      conv_rhs => rw [← ih, bind_map_left]
      rw [map_bind]
      congr 1
      funext outcome
      cases outcome with
      | error e => rw [map_pure]; rfl
      | ok more =>
        show Except.map (List.filterMap f) <$> pure (.ok (cmd.findings ds ++ more)) =
          pure (.ok (cmd.findings ds ++ more.filterMap f))
        rw [map_pure, Except.map, List.filterMap_append, hf]

/-- The settings of rules do not reach the checks of the analyzer. -/
theorem Config.filterMap_findings (config : Config) (cmd : ShellCommand) (ds : List Diagnostic) :
    (cmd.findings ds).filterMap config.reviseByRule = cmd.findings ds := by
  have hsome : ∀ c ∈ cmd.findings ds, config.reviseByRule c = some c := by
    intro c hc
    obtain ⟨d, -, rfl⟩ := ShellCommand.eq_of_mem_findings hc
    exact config.reviseByRule_of_startsWith d.startsWith_code
  rw [List.filterMap_congr hsome, List.filterMap_some]

/-- Evaluation under a configuration is a pass over the checks without one. -/
theorem Config.evaluate_linter (config : Config) (analyzer : Option (Analyzer m))
    (script : Script) :
    (Catalog.linter analyzer config).evaluate script =
      Except.map (List.filterMap config.reviseByRule) <$>
        (Catalog.linter analyzer {}).evaluate script := by
  cases analyzer with
  | none =>
    rw [Linter.evaluate_of_analyzer_none rfl, Linter.evaluate_of_analyzer_none rfl, map_pure,
      Except.map, filterMap_ruleChecks]
  | some a =>
    rw [Linter.evaluate_of_analyzer_some rfl, Linter.evaluate_of_analyzer_some rfl, Functor.map_map]
    conv_lhs => rw [Analyzer.checks, ← a.map_findings_of_forall config.filterMap_findings,
      Functor.map_map]
    rw [Analyzer.checks]
    congr 1
    funext outcome
    cases outcome with
    | error e => rfl
    | ok found =>
      show Except.ok (_ ++ found.filterMap _) = Except.ok ((_ ++ found).filterMap _)
      rw [List.filterMap_append, filterMap_ruleChecks]

/-- Linting with the catalog under a configuration is linting under the default one and revising the
findings, in their order; an error stays the same. Findings whose codes start with `SC` are only
ever dropped, because their code is ignored, and of any other finding nothing but the severity
changes. -/
theorem lint_configured (analyzer : Option (Analyzer m)) (config : Config) (script : Script) :
    (Catalog.linter analyzer config).lint script =
      Except.map config.postprocess <$> (Catalog.linter analyzer {}).lint script ∧
    (∀ c : Check, Text.startsWith c.code "SC" = true →
      config.revise c = if c.code ∈ config.ignored then none else some c) ∧
    ∀ c c' : Check, config.revise c = some c' →
      c' = { c with metadata.severity := c'.metadata.severity } := by
  refine ⟨?_, fun c hc => ?_, fun c c' => Config.eq_of_revise⟩
  · rw [Linter.lint_eq_map, Linter.lint_eq_map, config.evaluate_linter, Functor.map_map,
      Functor.map_map]
    congr 1
    funext outcome
    cases outcome with
    | error e => rfl
    | ok checks => exact congrArg Except.ok (config.postprocess_report checks).symm
  · rw [Config.revise, config.reviseByRule_of_startsWith hc]

end Monadic

/-- A rule that is reweighed under its name, and a remark that is ignored. -/
theorem lint_configured_latest :
    let config : Config :=
      { ignored := ["SC2086"],
        rules := RuleTable.empty.insert "no-latest-tag" { severity := some .error } }
    let analyzer : Analyzer Id := .silent fun _ => pure (.ok [⟨2086, .info, "Double quote"⟩])
    let script : Script :=
      [⟨.fromImage (.tagged "ubuntu" "latest"), "Dockerfile", 1⟩,
        ⟨.run ["echo", "$x"], "Dockerfile", 2⟩]
    (Catalog.linter (some analyzer) config).lint script =
      Except.map config.postprocess ((Catalog.linter (some analyzer) {}).lint script) ∧
    config.revise ⟨⟨"SC2086", .info, "Double quote"⟩, "Dockerfile", 2, false⟩ = none ∧
    config.revise ⟨Catalog.noLatestTag.metadata, "Dockerfile", 1, false⟩ =
      some ⟨Catalog.noLatestTag.metadata.withSeverity .error, "Dockerfile", 1, false⟩ := by
  intro config analyzer script
  exact ⟨(lint_configured (some analyzer) config script).1, by decide, by decide⟩

end DockerfileLint
