import DockerfileLint.Proofs.Linting
import DockerfileLint.Proofs.WholeFileRules
import Mathlib.Data.List.Flatten

/-!
# Growing scripts

Adding instructions to a script hides no finding (`lint_sublist`). An instruction rule and the
analyzer judge each instruction by itself, and a whole-file rule that fails goes on failing, as it
asks for a number of instructions. The name of the file on a whole-file finding is that of the first
instruction, and so the only thing that may change.
-/

namespace DockerfileLint

/-! ### Findings of two scripts -/

/-- A finding as it is compared between scripts: one of a built-in whole-file rule without the name
of the file. -/
def Catalog.comparable (c : Check) : Check :=
  if (ruleOf? c).any Rule.isWholeFile then { c with filename := "" } else c

theorem Catalog.comparable_of_whole {r : Rule} (hr : r ∈ all) (hwhole : r.isWholeFile = true)
    {c : Check} (hcode : c.code = r.code) : comparable c = { c with filename := "" } := by
  rw [comparable, ruleOf?_of_code hr hcode, Option.any_some, hwhole, if_pos rfl]

/-- The findings that a report under the configuration shows, as they are compared. -/
def Config.compared (config : Config) (checks : List Check) : List Check :=
  (checks.filter config.reports).map Catalog.comparable

namespace Config

variable (config : Config)

theorem compared_append (xs ys : List Check) :
    config.compared (xs ++ ys) = config.compared xs ++ config.compared ys := by
  rw [compared, List.filter_append, List.map_append]
  rfl

theorem compared_flatMap {α : Type} (xs : List α) (f : α → List Check) :
    config.compared (xs.flatMap f) = xs.flatMap fun x => config.compared (f x) := by
  rw [compared, List.filter_flatMap, List.map_flatMap]
  rfl

theorem compared_sublist {xs ys : List Check} (h : xs.Sublist ys) :
    (config.compared xs).Sublist (config.compared ys) :=
  (h.filter _).map _

/-- A report shows the reported checks, in another order. -/
theorem perm_map_comparable (checks : List Check) :
    ((Linter.report config checks).findings.map Catalog.comparable).Perm
      (config.compared checks) := by
  rw [Linter.findings_report]
  exact (sortByLine_perm _).map _

/-- A check on the whole file is compared by its rule and its outcome only. -/
theorem compared_whole {r : Rule} (hr : r ∈ Catalog.all) (hwhole : r.isWholeFile = true)
    {metadata : Metadata} (hcode : metadata.code = r.code) (file : String) (line : Int64)
    (success : Bool) :
    config.compared [⟨metadata, file, line, success⟩] =
      if config.reports ⟨metadata, "", line, success⟩ then [⟨metadata, "", line, success⟩]
        else [] := by
  have hreports : config.reports ⟨metadata, file, line, success⟩ =
      config.reports ⟨metadata, "", line, success⟩ := rfl
  have hfile : Catalog.comparable ⟨metadata, file, line, success⟩ = ⟨metadata, "", line, success⟩ :=
    Catalog.comparable_of_whole hr hwhole hcode
  rw [compared, List.filter_singleton, hreports]
  cases config.reports ⟨metadata, "", line, success⟩ with
  | false => rfl
  | true => simp [hfile]

end Config

/-! ### Rules and the analyzer on a longer script -/

section Sublist

variable {s s' : Script} (hsub : s.Sublist s')

include hsub in
/-- What a built-in rule reports on a script it reports on a longer one. -/
theorem Config.compared_check_sublist (config : Config) {r : Rule} (hr : r ∈ Catalog.all) :
    (config.compared ((config.weigh r).check s)).Sublist
      (config.compared ((config.weigh r).check s')) := by
  cases htest : r.test with
  | each holds =>
    have hweighed : (config.weigh r).test = .each holds := by rw [config.test_weigh, htest]
    rw [Rule.check_of_each hweighed, Rule.check_of_each hweighed]
    exact config.compared_sublist (hsub.map _)
  | whole holds =>
    have hweighed : (config.weigh r).test = .whole holds := by rw [config.test_weigh, htest]
    have hwhole : r.isWholeFile = true := by rw [Rule.isWholeFile, htest]
    have hcode : (config.weigh r).code = r.code := config.code_weigh r
    rw [Rule.check_of_whole hweighed, Rule.check_of_whole hweighed,
      config.compared_whole hr hwhole hcode, config.compared_whole hr hwhole hcode]
    cases hs : holds (s.map Positioned.instruction) with
    | true => simp [Config.reports]
    | false =>
      -- the quotas that the script reaches are reached by the longer one
      obtain ⟨quotas, hquotas⟩ := Catalog.exists_quotas hr htest
      have hs' : holds (s'.map Positioned.instruction) = false :=
        (hquotas _).2 (((hquotas _).1 hs).sublist (hsub.map _))
      rw [hs']

include hsub in
theorem Analyzer.remarkChecks_sublist (a : Analyzer Id) :
    (a.remarkChecks s).Sublist (a.remarkChecks s') :=
  (hsub.filterMap _).flatMap _

include hsub in
theorem Analyzer.Answers.sublist {a : Analyzer Id} (h : a.Answers s') : a.Answers s :=
  fun cmd hcmd => h cmd ((hsub.filterMap _).subset hcmd)

include hsub in
theorem Catalog.compared_allChecks_sublist (analyzer : Option (Analyzer Id)) (config : Config) :
    (config.compared ((linter analyzer config).allChecks s)).Sublist
      (config.compared ((linter analyzer config).allChecks s')) := by
  unfold Linter.allChecks
  rw [config.compared_append, config.compared_append, ruleChecks_linter, ruleChecks_linter]
  simp only [config.compared_flatMap]
  refine List.Sublist.append (.flatMap_right _ fun r hr => ?_) (.flatMap_right _ fun a _ => ?_)
  · exact config.compared_check_sublist hsub (List.mem_filter.1 hr).1
  · exact config.compared_sublist (a.remarkChecks_sublist hsub)

end Sublist

/-- Adding instructions hides no finding. Under any configuration and any analyzer that is a
function of the command and answers every command of the longer script, each finding on the shorter
script is there at least as many times on the longer one. Findings of whole-file rules are compared
without the name of the file. -/
theorem lint_sublist (analyzer : Option (Analyzer Id)) (config : Config) {s s' : Script}
    (hsub : s.Sublist s') (hanswers : ∀ a ∈ analyzer, a.Answers s') :
    ∃ r r', (Catalog.linter analyzer config).lint s = .ok r ∧
      (Catalog.linter analyzer config).lint s' = .ok r' ∧
      ∀ c, (r.findings.map Catalog.comparable).count c ≤
        (r'.findings.map Catalog.comparable).count c := by
  refine ⟨_, _, Linter.lint_of_answers fun a ha => (hanswers a ha).sublist hsub,
    Linter.lint_of_answers hanswers, fun c => ?_⟩
  have hcompared := Catalog.compared_allChecks_sublist hsub analyzer config
  calc _ = (config.compared ((Catalog.linter analyzer config).allChecks s)).count c :=
        (config.perm_map_comparable _).count_eq c
    _ ≤ (config.compared ((Catalog.linter analyzer config).allChecks s')).count c :=
      hcompared.count_le c
    _ = _ := ((config.perm_map_comparable _).count_eq c).symm

/-- A second `CMD` in front, from another file, and a command between. -/
theorem lint_sublist_second_cmd :
    let script : Script := [⟨.cmd ["a"], "Dockerfile", 2⟩, ⟨.cmd ["b"], "Dockerfile", 4⟩]
    let longer : Script :=
      [⟨.cmd ["c"], "other", 1⟩, ⟨.cmd ["a"], "Dockerfile", 2⟩,
        ⟨.run ["cd", "/tmp"], "Dockerfile", 3⟩, ⟨.cmd ["b"], "Dockerfile", 4⟩]
    let analyzer : Analyzer Id := .silent fun command => pure (.ok [⟨2164, .warning, command⟩])
    ∃ r r', (Catalog.linter (some analyzer) {}).lint script = .ok r ∧
      (Catalog.linter (some analyzer) {}).lint longer = .ok r' ∧
      ∀ c, (r.findings.map Catalog.comparable).count c ≤
        (r'.findings.map Catalog.comparable).count c := by
  intro script longer analyzer
  refine lint_sublist (some analyzer) {} (by decide) ?_
  intro a ha cmd _
  cases ha
  exact ⟨_, rfl⟩

end DockerfileLint
