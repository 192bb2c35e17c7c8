import DockerfileLint.Catalog
import DockerfileLint.Linter
import Mathlib.Data.List.Nodup

/-!
# The catalog as a whole

What holds of every built-in rule. Codes are unique and start with `DL`, so that the code of a check
tells which rule it comes from, and a check of the shell analyzer, whose code starts with `SC`,
comes from none (`ruleOf?`).
-/

namespace DockerfileLint

theorem Rule.metadata_of_mem_check {r : Rule} {script : Script} {c : Check}
    (hc : c ∈ r.check script) :
    c.metadata = r.metadata := by
  unfold Rule.check at hc
  split at hc
  · obtain ⟨p, -, rfl⟩ := List.mem_map.1 hc
    rfl
  · rw [List.mem_singleton.1 hc]

/-- The checks of an instruction rule, one for each instruction. -/
theorem Rule.check_of_each {r : Rule} {holds : Instruction → Bool} (h : r.test = .each holds)
    (script : Script) :
    r.check script =
      script.map fun p => ⟨r.metadata, p.source, p.line, holds p.instruction.effective⟩ := by
  rw [check, h]

/-- The one check of a whole-file rule. -/
theorem Rule.check_of_whole {r : Rule} {holds : List Instruction → Bool} (h : r.test = .whole holds)
    (script : Script) :
    r.check script =
      [⟨r.metadata, (script.head?.map Positioned.source).getD "", wholeFileLine,
        holds (script.map Positioned.instruction)⟩] := by
  rw [check, h]

@[simp] theorem Config.test_weigh (config : Config) (r : Rule) :
    (config.weigh r).test = r.test := by
  unfold weigh
  split <;> rfl

@[simp] theorem Config.code_weigh (config : Config) (r : Rule) :
    (config.weigh r).code = r.code := by
  unfold weigh
  split <;> rfl

/-- A chosen rule tests what the rule that it was chosen for tests. -/
theorem Config.exists_of_mem_select {config : Config} {rules : List Rule} {r : Rule}
    (hr : r ∈ config.select rules) :
    ∃ q ∈ rules, r.test = q.test := by
  obtain ⟨q, hq, rfl⟩ := List.mem_map.1 hr
  exact ⟨q, (List.mem_filter.1 hq).1, config.test_weigh q⟩

/-- In a list of rules with different codes each rule is found by its code. -/
theorem find?_code_of_mem {rules : List Rule} (hcodes : (rules.map Rule.code).Nodup) {r : Rule}
    (hr : r ∈ rules) :
    rules.find? (fun q => q.code == r.code) = some r := by
  cases hfind : rules.find? (fun q => q.code == r.code) with
  | none => exact absurd (beq_self_eq_true r.code) (List.find?_eq_none.1 hfind r hr)
  | some q =>
    have hq := List.mem_of_find?_eq_some hfind
    have hcode : q.code = r.code := by simpa using List.find?_some hfind
    rw [List.inj_on_of_nodup_map hcodes hq hr hcode]

namespace Catalog

theorem nodup_codes : (all.map Rule.code).Nodup := by decide

theorem startsWith_code : ∀ r ∈ all, Text.startsWith r.code "DL" = true := by decide

/-- The built-in rule that has the code of a check. -/
def ruleOf? (c : Check) : Option Rule := all.find? fun r => r.code == c.code

theorem ruleOf?_of_code {r : Rule} (hr : r ∈ all) {c : Check} (hcode : c.code = r.code) :
    ruleOf? c = some r := by
  rw [ruleOf?, hcode]
  exact find?_code_of_mem nodup_codes hr

/-- A check of a built-in rule is known by its code. -/
theorem ruleOf?_of_mem_check {r : Rule} (hr : r ∈ all) {script : Script} {c : Check}
    (hc : c ∈ r.check script) :
    ruleOf? c = some r :=
  ruleOf?_of_code hr (congrArg Metadata.code (Rule.metadata_of_mem_check hc))

/-- No code starts with both `DL` and `SC`. -/
theorem not_startsWith_of_startsWith {code : String} (h : Text.startsWith code "SC" = true) :
    ¬Text.startsWith code "DL" = true := by
  intro hdl
  -- the first letter of the code would have to be both `D` and `S`
  obtain ⟨dl, hdl⟩ := List.isPrefixOf_iff_prefix.1 hdl
  obtain ⟨sc, hsc⟩ := List.isPrefixOf_iff_prefix.1 h
  rw [← hdl] at hsc
  simp at hsc

/-- No built-in rule has a code that starts with `SC`. -/
theorem ruleOf?_of_startsWith {c : Check} (h : Text.startsWith c.code "SC" = true) :
    ruleOf? c = none := by
  refine List.find?_eq_none.2 fun r hr hcode => not_startsWith_of_startsWith h ?_
  rw [← eq_of_beq hcode]
  exact startsWith_code r hr

theorem filter_isWholeFile :
    all.filter Rule.isWholeFile =
      [maintainerDeprecated, wgetOrCurl, multipleCmds, multipleEntrypoints] := rfl

/-- Four rules judge the file as a whole. -/
theorem eq_of_isWholeFile {r : Rule} (hr : r ∈ all) (h : r.isWholeFile = true) :
    r = maintainerDeprecated ∨ r = wgetOrCurl ∨ r = multipleCmds ∨ r = multipleEntrypoints := by
  have hmem : r ∈ all.filter Rule.isWholeFile := List.mem_filter.2 ⟨hr, h⟩
  simpa [filter_isWholeFile] using hmem

/-- The linter of the whole catalog under a configuration, with the given analyzer or with none. -/
def linter {m : Type → Type} (analyzer : Option (Analyzer m)) (config : Config) : Linter m :=
  LinterBuilder.build { rules := all, config := some config, analyzer := analyzer }

/-- The checks of the rules: those of every built-in rule that is run, as the configuration weighs
it. -/
theorem ruleChecks_linter {m : Type → Type} (analyzer : Option (Analyzer m)) (config : Config)
    (script : Script) :
    (linter analyzer config).ruleChecks script =
      (all.filter config.runs).flatMap fun r => (config.weigh r).check script := by
  show (((all.filter config.runs).map config.weigh).flatMap fun r => r.check script) = _
  rw [List.flatMap_map]

end Catalog

end DockerfileLint
