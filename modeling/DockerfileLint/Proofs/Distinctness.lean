import DockerfileLint.Proofs.Catalog
import DockerfileLint.Proofs.Linting

/-!
# No finding is reported twice

Where every instruction has a line of its own, the findings of a report differ in line or metadata,
and those of built-in rules in line or code (`lint_nodup`). Three facts meet here:

* a rule has at most one check at a line, and the codes of the catalog differ
  (`Catalog.nodup_ruleChecks`);
* the analyzer has each remark on a command once (`Analyzer.nodup_findings`);
* the codes of rules start with `DL` and those of the analyzer with `SC`.
-/

namespace DockerfileLint

/-! ### Rules -/

/-- A rule has at most one check at a line. -/
theorem Rule.nodup_check (r : Rule) {script : Script}
    (hlines : (script.map Positioned.line).Nodup) :
    ((r.check script).map fun c => (c.line, c.code)).Nodup := by
  cases htest : r.test with
  | each holds =>
    refine List.Nodup.of_map Prod.fst ?_
    rw [check_of_each htest, List.map_map, List.map_map]
    exact hlines
  | whole holds =>
    rw [check_of_whole htest]
    exact List.nodup_singleton _

theorem Config.code_of_mem_check_weigh {config : Config} {r : Rule} {script : Script} {c : Check}
    (hc : c ∈ (config.weigh r).check script) : c.code = r.code := by
  rw [← config.code_weigh r]
  exact congrArg Metadata.code (Rule.metadata_of_mem_check hc)

namespace Catalog

variable {m : Type → Type} (analyzer : Option (Analyzer m)) (config : Config) {script : Script}

/-- Checks of rules differ in line or code. -/
theorem nodup_ruleChecks (hlines : (script.map Positioned.line).Nodup) :
    (((linter analyzer config).ruleChecks script).map fun c => (c.line, c.code)).Nodup := by
  rw [ruleChecks_linter, List.map_flatMap, List.nodup_flatMap]
  refine ⟨fun r _ => (config.weigh r).nodup_check hlines, ?_⟩
  have hcodes : all.Pairwise fun r q => r.code ≠ q.code := List.pairwise_map.1 nodup_codes
  refine (hcodes.sublist List.filter_sublist).imp fun {r q} hne => ?_
  -- what two rules have in common would be a code of both
  intro place hr hq
  obtain ⟨c, hc, rfl⟩ := List.mem_map.1 hr
  obtain ⟨d, hd, heq⟩ := List.mem_map.1 hq
  have hcode : d.code = c.code := congrArg Prod.snd heq
  rw [Config.code_of_mem_check_weigh hc, Config.code_of_mem_check_weigh hd] at hcode
  exact hne hcode.symm

theorem startsWith_of_mem_ruleChecks {c : Check}
    (hc : c ∈ (linter analyzer config).ruleChecks script) :
    Text.startsWith c.code "DL" = true := by
  rw [ruleChecks_linter] at hc
  obtain ⟨r, hr, hrule⟩ := List.mem_flatMap.1 hc
  rw [Config.code_of_mem_check_weigh hrule]
  exact startsWith_code r (List.mem_filter.1 hr).1

end Catalog

/-! ### The analyzer -/

theorem nodup_distinct {α : Type} [DecidableEq α] (xs : List α) : (distinct xs).Nodup := by
  induction xs with
  | nil => exact List.nodup_nil
  | cons x xs ih =>
    rw [distinct, List.nodup_cons]
    exact ⟨by simp, ih.filter _⟩

theorem ShellCommand.nodup_findings (cmd : ShellCommand) (ds : List Diagnostic) :
    ((cmd.findings ds).map fun c => (c.line, c.metadata)).Nodup := by
  refine List.Nodup.of_map Prod.snd ?_
  rw [findings, List.map_map, List.map_map]
  show ((distinct (ds.map Diagnostic.metadata)).map id).Nodup
  rw [List.map_id]
  exact nodup_distinct _

theorem shellCommands_lines_sublist (script : Script) :
    ((shellCommands script).map ShellCommand.line).Sublist (script.map Positioned.line) := by
  induction script with
  | nil => exact List.Sublist.refl _
  | cons p script ih =>
    cases hargs : p.instruction.runArgs? with
    | none =>
      rw [shellCommands, List.filterMap_cons_none (by rw [hargs]; rfl)]
      exact ih.cons _
    | some args =>
      rw [shellCommands, List.filterMap_cons_some (by rw [hargs]; rfl)]
      exact ih.cons_cons _

/-- Checks of a run differ in line or metadata, as long as its commands differ in line. -/
theorem Analyzer.nodup_findings {σ : Type} {a : Analyzer (StateM σ)} {cmds : List ShellCommand}
    (hlines : (cmds.map ShellCommand.line).Nodup) {st : σ} {found : List Check}
    (h : ((a.findings cmds).run st).1 = .ok found) :
    (found.map fun c => (c.line, c.metadata)).Nodup := by
  induction cmds generalizing st found with
  | nil =>
    cases h
    exact List.nodup_nil
  | cons cmd cmds ih =>
    obtain ⟨ds, st', more, hmore, rfl⟩ := exists_of_run_findings_cons h
    obtain ⟨hcmd, hrest⟩ := List.nodup_cons.1 hlines
    rw [List.map_append, List.nodup_append]
    refine ⟨cmd.nodup_findings ds, ih hrest hmore, ?_⟩
    intro place hplace place' hplace' heq
    subst heq
    obtain ⟨c, hc, rfl⟩ := List.mem_map.1 hplace
    obtain ⟨c', hc', heq⟩ := List.mem_map.1 hplace'
    -- the line of `c'` would be that of `cmd` and that of a later command
    obtain ⟨other, hother, ds', hfound⟩ := command_of_mem_findings hmore hc'
    obtain ⟨d, -, rfl⟩ := ShellCommand.eq_of_mem_findings hc
    obtain ⟨d', -, rfl⟩ := ShellCommand.eq_of_mem_findings hfound
    have hline : other.line = cmd.line := congrArg Prod.fst heq
    exact hcmd (hline ▸ List.mem_map_of_mem hother)

theorem Analyzer.startsWith_of_mem_checks {σ : Type} {a : Analyzer (StateM σ)} {script : Script}
    {st : σ} {found : List Check} (h : ((a.checks script).run st).1 = .ok found) {c : Check}
    (hc : c ∈ found) :
    Text.startsWith c.code "SC" = true := by
  obtain ⟨cmd, -, ds, hmem⟩ := command_of_mem_findings h hc
  obtain ⟨d, -, rfl⟩ := ShellCommand.eq_of_mem_findings hmem
  exact d.startsWith_code

/-! ### Reports -/

/-- A lint with success reports the checks of the rules and checks of the analyzer, whose codes
start with `SC` and which differ in line or metadata. -/
theorem Catalog.eq_report_of_lint {σ : Type} {analyzer : Option (Analyzer (StateM σ))}
    {config : Config} {script : Script} {st : σ} {r : LintResult}
    (h : (((linter analyzer config).lint script).run st).1 = .ok r)
    (hlines : (script.map Positioned.line).Nodup) :
    ∃ found, r = Linter.report config ((linter analyzer config).ruleChecks script ++ found) ∧
      (∀ c ∈ found, Text.startsWith c.code "SC" = true) ∧
      (found.map fun c => (c.line, c.metadata)).Nodup := by
  obtain ⟨checks, hchecks, rfl⟩ := Linter.exists_of_run_lint h
  obtain ⟨found, rfl, ⟨-, rfl⟩ | ⟨a, -, hfound⟩⟩ := Linter.evaluate_eq_append_checks hchecks
  · exact ⟨[], rfl, by simp, List.nodup_nil⟩
  · exact ⟨found, rfl, fun c => Analyzer.startsWith_of_mem_checks hfound,
      Analyzer.nodup_findings (hlines.sublist (shellCommands_lines_sublist script)) hfound⟩

/-- What differs pairwise among the checks of some kind does so among the findings of that kind in a
report. -/
theorem Linter.nodup_report {α : Type} (config : Config) {checks : List Check} (kind : Check → Bool)
    {key : Check → α} (h : ((checks.filter kind).map key).Nodup) :
    (((report config checks).findings.filter kind).map key).Nodup := by
  rw [findings_report, (((sortByLine_perm _).filter kind).map key).nodup_iff]
  exact h.sublist ((List.filter_sublist.filter kind).map key)

/-- No finding is reported twice. Where the instructions have different lines, the findings of the
catalog and of any analyzer, under any configuration, differ in line or metadata, that is code,
severity and message. Those whose codes start with `DL` differ in line or code. -/
theorem lint_nodup {σ : Type} (analyzer : Option (Analyzer (StateM σ))) (config : Config)
    {script : Script} (hlines : (script.map Positioned.line).Nodup) (st : σ) {r : LintResult}
    (h : (((Catalog.linter analyzer config).lint script).run st).1 = .ok r) :
    (r.findings.map fun c => (c.line, c.metadata)).Nodup ∧
    ((r.findings.filter fun c => Text.startsWith c.code "DL").map fun c =>
      (c.line, c.code)).Nodup := by
  obtain ⟨found, rfl, hsc, hfound⟩ := Catalog.eq_report_of_lint h hlines
  have hrules := Catalog.nodup_ruleChecks analyzer config hlines
  have hdl : ∀ c ∈ (Catalog.linter analyzer config).ruleChecks script,
      Text.startsWith c.code "DL" = true :=
    fun c => Catalog.startsWith_of_mem_ruleChecks analyzer config
  generalize (Catalog.linter analyzer config).ruleChecks script = checks at hrules hdl ⊢
  constructor
  · have hall : ((checks ++ found).map fun c => (c.line, c.metadata)).Nodup := by
      rw [List.map_append, List.nodup_append]
      refine ⟨?_, hfound, ?_⟩
      · refine List.Nodup.of_map (fun place => (place.1, place.2.code)) ?_
        rw [List.map_map]
        exact hrules
      · intro place hplace place' hplace' heq
        obtain ⟨c, hc, rfl⟩ := List.mem_map.1 hplace
        obtain ⟨d, hd, rfl⟩ := List.mem_map.1 hplace'
        have hcode : c.code = d.code := congrArg (fun place => place.2.code) heq
        exact Catalog.not_startsWith_of_startsWith (hsc d hd) (hcode ▸ hdl c hc)
    simpa using Linter.nodup_report config (fun _ => true) (by simpa using hall)
  · refine Linter.nodup_report config _ ?_
    have hnone : found.filter (fun c => Text.startsWith c.code "DL") = [] :=
      List.filter_eq_nil_iff.2 fun c hc => Catalog.not_startsWith_of_startsWith (hsc c hc)
    rw [List.filter_append, hnone, List.append_nil, List.filter_eq_self.2 hdl]
    exact hrules

/-- A remark that the analyzer repeats, and an instruction at the line of the whole-file checks. -/
theorem lint_nodup_repeated :
    let script : Script :=
      [⟨.maintainer "a", "Dockerfile", -1⟩, ⟨.run ["cd", "/tmp"], "Dockerfile", 2⟩,
        ⟨.run ["cd", "/tmp"], "Dockerfile", 3⟩]
    let analyzer : Analyzer (StateM Unit) :=
      .silent fun _ => pure (.ok [⟨2164, .warning, "cd"⟩, ⟨2164, .warning, "cd"⟩])
    ∃ r, (((Catalog.linter (some analyzer) {}).lint script).run ()).1 = .ok r ∧
      (r.findings.map fun c => (c.line, c.metadata)).Nodup ∧
      ((r.findings.filter fun c => Text.startsWith c.code "DL").map fun c =>
        (c.line, c.code)).Nodup := by
  intro script analyzer
  have hlines : (script.map Positioned.line).Nodup := by decide
  exact ⟨_, rfl, lint_nodup (some analyzer) {} hlines () rfl⟩

end DockerfileLint
