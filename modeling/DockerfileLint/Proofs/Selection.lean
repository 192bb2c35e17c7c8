import DockerfileLint.Catalog.Selection
import DockerfileLint.Linter.Configured
import DockerfileLint.Proofs.Remarks
import DockerfileLint.Proofs.Text

/-!
# Selections of rules

A selection runs each built-in rule as many times as its keys name the rule, so that a finding of
the rule is reported that many times as often as by the whole catalog, and what the analyzer adds
stays the same (`lint_select_count`).

No two built-in rules share a code or a name, hence a key selects the rule that it names and no
other (`Catalog.find?_eq_some_iff`).
-/

namespace DockerfileLint

/-! ### Keys -/

theorem Rule.answersTo_iff {r : Rule} {key : String} :
    r.answersTo key = true ↔ key = r.code ∨ key = r.name := by
  rw [answersTo, Bool.or_eq_true, beq_iff_eq, beq_iff_eq, eq_comm, @eq_comm _ r.name]

/-- Among rules that share no code or name each is found by either of its own. -/
theorem find?_answersTo_of_mem {rules : List Rule}
    (hkeys : (rules.flatMap fun r => [r.code, r.name]).Nodup) {r : Rule} (hr : r ∈ rules)
    {key : String} (hkey : r.answersTo key = true) :
    rules.find? (fun q => q.answersTo key) = some r := by
  have hmem : ∀ {q : Rule}, q.answersTo key = true → key ∈ [q.code, q.name] := by
    intro q hq
    simpa using Rule.answersTo_iff.1 hq
  induction rules with
  | nil => cases hr
  | cons q rules ih =>
    rw [List.flatMap_cons, List.nodup_append] at hkeys
    obtain ⟨-, hrest, hdisjoint⟩ := hkeys
    rcases List.mem_cons.1 hr with rfl | hr
    · exact List.find?_cons_of_pos hkey
    · have hq : ¬q.answersTo key = true :=
        fun hq => hdisjoint key (hmem hq) key (List.mem_flatMap.2 ⟨r, hr, hmem hkey⟩) rfl
      rw [List.find?_cons_of_neg (by exact hq), ih hrest hr]

namespace Catalog

theorem nodup_keys : (all.flatMap fun r => [r.code, r.name]).Nodup := by decide +kernel

theorem eq_of_code {q r : Rule} (hq : q ∈ all) (hr : r ∈ all) (h : q.code = r.code) : q = r :=
  List.inj_on_of_nodup_map nodup_codes hq hr h

/-- A key selects the rule that it names. -/
theorem find?_eq_some_iff {key : String} {r : Rule} :
    find? key = some r ↔ r ∈ all ∧ (key = r.code ∨ key = r.name) := by
  rw [← Rule.answersTo_iff]
  constructor
  · intro h
    have hkey := List.find?_some h
    exact ⟨List.mem_of_find?_eq_some h, hkey⟩
  · rintro ⟨hr, hkey⟩
    exact find?_answersTo_of_mem nodup_keys hr hkey

theorem find?_eq_none_iff {key : String} :
    find? key = none ↔ ¬∃ r ∈ all, key = r.code ∨ key = r.name := by
  rw [Option.eq_none_iff_forall_ne_some]
  constructor
  · rintro h ⟨r, hr, hkey⟩
    exact h r (find?_eq_some_iff.2 ⟨hr, hkey⟩)
  · rintro h r hfind
    exact h ⟨r, find?_eq_some_iff.1 hfind⟩

theorem mem_all_of_mem_select {selection : String} {r : Rule} (h : r ∈ select selection) :
    r ∈ all := by
  obtain ⟨key, -, hfind⟩ := List.mem_filterMap.1 h
  exact (find?_eq_some_iff.1 hfind).1

/-- A rule is selected as many times as it is named. -/
theorem countP_select (selection : String) {r : Rule} (hr : r ∈ all) :
    (select selection).countP (fun q => q.code == r.code) =
      (keys selection).countP fun key => key = r.code ∨ key = r.name := by
  rw [select, List.countP_filterMap]
  refine List.countP_congr fun key _ => ?_
  rw [decide_eq_true_iff]
  cases hfind : find? key with
  | none =>
    have hnone : ¬(key = r.code ∨ key = r.name) :=
      fun hkey => find?_eq_none_iff.1 hfind ⟨r, hr, hkey⟩
    simp [hnone]
  | some q =>
    obtain ⟨hq, hkey⟩ := find?_eq_some_iff.1 hfind
    rw [Option.map_some, Option.getD_some, beq_iff_eq]
    constructor
    · intro hcode
      rwa [← eq_of_code hq hr hcode]
    · intro hnamed
      rw [find?_eq_some_iff.2 ⟨hr, hnamed⟩] at hfind
      rw [Option.some.inj hfind]

theorem countP_all {r : Rule} (hr : r ∈ all) : all.countP (fun q => q.code == r.code) = 1 := by
  have hcount := List.count_eq_one_of_mem nodup_codes (List.mem_map_of_mem hr)
  rwa [List.count, List.countP_map] at hcount

/-- Keys that name no rule select nothing. -/
theorem filterMap_find?_filter (ks : List String) :
    (ks.filter fun key => ∃ r ∈ all, key = r.code ∨ key = r.name).filterMap find? =
      ks.filterMap find? := by
  rw [List.filterMap_filter]
  refine List.filterMap_congr fun key _ => ?_
  split
  · rfl
  · rename_i hunknown
    exact (find?_eq_none_iff.2 (by simpa using hunknown)).symm

/-- The keys of a selection are its pieces between commas, trimmed, without the empty ones. -/
theorem exists_pieces (selection : String) :
    ∃ pieces, ",".intercalate pieces = selection ∧ (∀ piece ∈ pieces, ',' ∉ piece.toList) ∧
      keys selection = (pieces.map Text.trim).filter fun key => key ≠ "" :=
  ⟨Text.splitOn selection ',', Text.intercalate_splitOn selection ',',
    fun _ => Text.not_mem_of_mem_splitOn, rfl⟩

end Catalog

/-! ### Checks of selected rules -/

/-- The checks of a rule under a configuration, none if it is not run. -/
def Config.checksOf (config : Config) (script : Script) (r : Rule) : List Check :=
  if config.runs r then (config.weigh r).check script else []

namespace Config

variable (config : Config) (script : Script)

theorem code_of_mem_checksOf {config : Config} {script : Script} {r : Rule} {c : Check}
    (h : c ∈ config.checksOf script r) : c.code = r.code := by
  unfold checksOf at h
  split at h
  · exact code_of_mem_check_weigh h
  · simp at h

theorem flatMap_select (rules : List Rule) :
    ((config.select rules).flatMap fun r => r.check script) =
      rules.flatMap (config.checksOf script) := by
  induction rules with
  | nil => rfl
  | cons r rules ih =>
    rw [List.flatMap_cons, ← ih]
    unfold select checksOf
    cases hruns : config.runs r with
    | false => simp [hruns]
    | true => simp [hruns]

/-- A check with the code of a rule occurs as often as for the rule alone, times the number of times
the rule is there. -/
theorem count_flatMap_checksOf {rules : List Rule} (hrules : ∀ q ∈ rules, q ∈ Catalog.all)
    {r : Rule} (hr : r ∈ Catalog.all) {c : Check} (hcode : c.code = r.code) :
    (rules.flatMap (config.checksOf script)).count c =
      rules.countP (fun q => q.code == r.code) * (config.checksOf script r).count c := by
  induction rules with
  | nil => simp
  | cons q rules ih =>
    obtain ⟨hq, hrest⟩ := List.forall_mem_cons.1 hrules
    rw [List.flatMap_cons, List.count_append, ih hrest, List.countP_cons]
    by_cases hsame : q.code = r.code
    · rw [Catalog.eq_of_code hq hr hsame, if_pos (beq_self_eq_true _), Nat.succ_mul, Nat.add_comm]
    · have hnone : (config.checksOf script q).count c = 0 := by
        refine List.count_eq_zero.2 fun hmem => hsame ?_
        rw [← code_of_mem_checksOf hmem, hcode]
      rw [hnone, if_neg (by simpa using hsame), Nat.zero_add, Nat.add_zero]

theorem isRemark_of_mem_flatMap {config : Config} {script : Script} {rules : List Rule}
    (hrules : ∀ q ∈ rules, q ∈ Catalog.all) {c : Check}
    (hc : c ∈ rules.flatMap (config.checksOf script)) :
    c.isRemark = false := by
  obtain ⟨q, hq, hmem⟩ := List.mem_flatMap.1 hc
  have hdl := Catalog.startsWith_code q (hrules q hq)
  rw [← code_of_mem_checksOf hmem] at hdl
  rw [← Bool.not_eq_true]
  exact fun h => Catalog.not_startsWith_of_startsWith h hdl

end Config

/-! ### Findings of selected rules -/

theorem Linter.count_report (config : Config) (checks : List Check) (c : Check) :
    (report config checks).findings.count c = if config.reports c then checks.count c else 0 := by
  rw [findings_report, (sortByLine_perm _).count_eq]
  split
  · exact List.count_filter ‹_›
  · rename_i hnot
    exact List.count_eq_zero.2 fun hmem => hnot (List.mem_filter.1 hmem).2

theorem Linter.mem_findings_report {config : Config} {checks : List Check} {c : Check} :
    c ∈ (report config checks).findings ↔ c ∈ checks ∧ config.reports c = true := by
  rw [findings_report, mem_sortByLine, List.mem_filter]

section Configured

variable {σ : Type} (run : String → List String → String → StateM σ Outcome)
  (announce : ShellCommand → StateM σ Unit) (config : Config)

/-- The analyzer of a configuration answers every command of the script in its turn, unless it is
switched off. -/
def Config.Answered (script : Script) (st : σ) : Prop :=
  config.shellcheck.enabled = true →
    ∀ before cmd after, shellCommands script = before ++ cmd :: after →
    ∃ ds, ((AnalyzerCommand.ofSettings config.shellcheck).analyzer run announce).answer
      st before cmd = .ok ds

/-- Where the analyzer answers, linting under a configuration reports the checks of the rules and
remarks that do not depend on the rules. -/
theorem Linter.exists_remarks_of_answered {script : Script} {st : σ}
    (h : config.Answered run announce script st) :
    ∃ found, (∀ c ∈ found, c.isRemark = true) ∧ ∀ rules,
      (((ofConfig run announce config rules).lint script).run st).1 =
        .ok (report config (rules.flatMap (config.checksOf script) ++ found)) := by
  have hrules : ∀ rules, (ofConfig run announce config rules).ruleChecks script =
      rules.flatMap (config.checksOf script) := config.flatMap_select script
  have hanalyzer : ∀ rules, (ofConfig run announce config rules).analyzer =
      if config.shellcheck.enabled
        then some ((AnalyzerCommand.ofSettings config.shellcheck).analyzer run announce)
      else none := fun _ => rfl
  cases henabled : config.shellcheck.enabled with
  | false =>
    refine ⟨[], by simp, fun rules => ?_⟩
    rw [run_lint_of_analyzer_none script st (by rw [hanalyzer, henabled]; rfl), hrules,
      List.append_nil]
    rfl
  | true =>
    obtain ⟨found, hfound⟩ := (Analyzer.findings_ok_iff _ (shellCommands script) st).2 (h henabled)
    refine ⟨found, fun c => Analyzer.startsWith_of_mem_checks hfound, fun rules => ?_⟩
    rw [run_lint_of_analyzer_some script st (by rw [hanalyzer, henabled]; rfl), hrules,
      Analyzer.checks, hfound]
    rfl

/-- A selection runs each rule as often as it is named. For every selection, configuration and
script on whose commands the analyzer of the configuration succeeds, unless it is switched off:

* the keys are the pieces between commas, trimmed, without the empty ones;
* a finding with the code of a rule occurs as often as under the whole catalog, times the number of
  keys that are the code or the name of the rule; a remark occurs as often as under the whole
  catalog; and there is no other finding;
* keys that name no rule have no effect. -/
theorem lint_select_count (selection : String) (script : Script) (st : σ)
    (h : config.Answered run announce script st) :
    (∃ pieces, ",".intercalate pieces = selection ∧ (∀ piece ∈ pieces, ',' ∉ piece.toList) ∧
      Catalog.keys selection = (pieces.map Text.trim).filter fun key => key ≠ "") ∧
    (∃ full selected,
      (((Linter.ofConfig run announce config Catalog.all).lint script).run st).1 = .ok full ∧
      (((Linter.ofConfig run announce config (Catalog.select selection)).lint script).run st).1 =
        .ok selected ∧
      (∀ r ∈ Catalog.all, ∀ c : Check, c.code = r.code →
        selected.findings.count c =
          ((Catalog.keys selection).countP fun key => key = r.code ∨ key = r.name) *
            full.findings.count c) ∧
      (∀ c : Check, c.isRemark = true → selected.findings.count c = full.findings.count c) ∧
      ∀ c ∈ selected.findings, c ∈ full.findings) ∧
    ∀ other,
      (Catalog.keys other).filter (fun key => ∃ r ∈ Catalog.all, key = r.code ∨ key = r.name) =
        (Catalog.keys selection).filter
          (fun key => ∃ r ∈ Catalog.all, key = r.code ∨ key = r.name) →
      (Linter.ofConfig run announce config (Catalog.select other)).lint script =
        (Linter.ofConfig run announce config (Catalog.select selection)).lint script := by
  have hselect : ∀ q ∈ Catalog.select selection, q ∈ Catalog.all :=
    fun q => Catalog.mem_all_of_mem_select
  obtain ⟨found, hfound, hlint⟩ := Linter.exists_remarks_of_answered run announce config h
  refine ⟨Catalog.exists_pieces selection,
    ⟨_, _, hlint _, hlint _, fun r hr c hcode => ?_, fun c hc => ?_,
    fun c hc => ?_⟩, fun other hkeys => ?_⟩
  · have hnone : found.count c = 0 := by
      refine List.count_eq_zero.2 fun hmem => Catalog.not_startsWith_of_startsWith
        (hfound c hmem) ?_
      rw [hcode]
      exact Catalog.startsWith_code r hr
    rw [Linter.count_report, Linter.count_report, List.count_append, List.count_append, hnone,
      config.count_flatMap_checksOf script hselect hr hcode,
      config.count_flatMap_checksOf script (fun q hq => hq) hr hcode,
      Catalog.countP_select selection hr,
      Catalog.countP_all hr, Nat.one_mul]
    split <;> simp
  · have hnone : ∀ rules : List Rule, (∀ q ∈ rules, q ∈ Catalog.all) →
        (rules.flatMap (config.checksOf script)).count c = 0 := by
      intro rules hrules
      refine List.count_eq_zero.2 fun hmem => ?_
      rw [Config.isRemark_of_mem_flatMap hrules hmem] at hc
      cases hc
    rw [Linter.count_report, Linter.count_report, List.count_append, List.count_append,
      hnone _ hselect, hnone Catalog.all fun q hq => hq]
  · rw [Linter.mem_findings_report, List.mem_append] at hc ⊢
    refine ⟨hc.1.imp_left fun hrule => ?_, hc.2⟩
    obtain ⟨q, hq, hmem⟩ := List.mem_flatMap.1 hrule
    exact List.mem_flatMap.2 ⟨q, hselect q hq, hmem⟩
  · have hsame : Catalog.select other = Catalog.select selection := by
      rw [Catalog.select, Catalog.select, ← Catalog.filterMap_find?_filter, hkeys,
        Catalog.filterMap_find?_filter]
    rw [hsame]

end Configured

/-- A rule that is named twice, by its code and by its name, beside an empty key and one that names
no rule. The analyzer has a remark on every command. -/
theorem lint_select_count_twice :
    let selection := " DL3007,no-latest-tag ,,DL9999"
    let script : Script :=
      [⟨.fromImage (.tagged "ubuntu" "latest"), "Dockerfile", 1⟩,
        ⟨.run ["echo", "$x"], "Dockerfile", 2⟩]
    let report := "[\x7b\"code\":2086,\"level\":\"info\",\"message\":\"Double quote\"\x7d]"
    let run : String → List String → String → StateM Unit Outcome :=
      fun _ _ _ => pure (.ran (.ok ()) (.ok ⟨.exited 1, report.toUTF8.toList, []⟩))
    let linter := Linter.ofConfig run (fun _ => pure ()) {}
    let latest : Check := ⟨Catalog.noLatestTag.metadata, "Dockerfile", 1, false⟩
    let remark : Check := ⟨⟨"SC2086", .info, "Double quote"⟩, "Dockerfile", 2, false⟩
    ∃ full selected, (((linter Catalog.all).lint script).run ()).1 = .ok full ∧
      (((linter (Catalog.select selection)).lint script).run ()).1 = .ok selected ∧
      selected.findings.count latest = 2 * full.findings.count latest ∧
      selected.findings.count remark = full.findings.count remark := by
  intro selection script report run linter latest remark
  have hreport : readReport report.toUTF8.toList = .ok [⟨2086, .info, "Double quote"⟩] := by
    decide +kernel
  have hkeys : ((Catalog.keys selection).countP fun key =>
      key = Catalog.noLatestTag.code ∨ key = Catalog.noLatestTag.name) = 2 := by decide +kernel
  obtain ⟨-, ⟨full, selected, hfull, hselected, hrules, hremarks, -⟩, -⟩ :=
    lint_select_count run (fun _ => pure ()) {} selection script () fun _ _ _ _ _ => ⟨_, hreport⟩
  refine ⟨full, selected, hfull, hselected, ?_, hremarks remark (by decide)⟩
  rw [hrules Catalog.noLatestTag (by simp [Catalog.all]) latest rfl, hkeys]

end DockerfileLint
