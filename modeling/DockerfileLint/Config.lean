import DockerfileLint.Rule

/-!
# Configuration

Which codes are suppressed, how single rules are switched and weighted, and how the shell analyzer
is run. The entry of a rule is looked up by its code and, only when there is none, by its name.
-/

namespace DockerfileLint

/-- What a configuration says about one rule. -/
structure RuleSetting where
  enabled : Option Bool := none
  severity : Option Severity := none
  deriving DecidableEq, Repr

/-- Settings by rule code or name, each key once. -/
structure RuleTable where
  entries : List (String × RuleSetting)
  nodup : (entries.map Prod.fst).Nodup
  deriving DecidableEq

namespace RuleTable

/-- The table without settings. -/
def empty : RuleTable := ⟨[], by simp⟩

/-- The setting under a key. -/
def get? (t : RuleTable) (key : String) : Option RuleSetting := t.entries.lookup key

/-- The table with a setting under a key, in place of the one that may be there. -/
def insert (t : RuleTable) (key : String) (setting : RuleSetting) : RuleTable where
  entries := t.entries.filter (fun e => e.1 ≠ key) ++ [(key, setting)]
  nodup := by
    rw [List.map_append, List.nodup_append]
    refine ⟨t.nodup.sublist (List.filter_sublist.map _), by simp, ?_⟩
    simp only [List.map_cons, List.map_nil, List.mem_map, List.mem_filter, List.mem_singleton]
    rintro a ⟨e, ⟨-, he⟩, rfl⟩ b rfl
    simpa using he

end RuleTable

/-- How the shell analyzer is run. -/
structure AnalyzerSettings where
  enabled : Bool := true
  program : String := "shellcheck"
  shell : String := "sh"
  exclude : List String := []
  deriving DecidableEq, Repr

/-- A configuration; the default one changes nothing. -/
structure Config where
  ignored : List String := []
  rules : RuleTable := .empty
  shellcheck : AnalyzerSettings := {}
  deriving DecidableEq

namespace Config

/-- The setting of the rule with the code and the name. -/
def setting? (c : Config) (code name : String) : Option RuleSetting :=
  match c.rules.get? code with
  | some s => some s
  | none => c.rules.get? name

/-- Whether the rule is run; it is unless its setting says otherwise. -/
def isEnabled (c : Config) (code name : String) : Bool :=
  match c.setting? code name with
  | some s => s.enabled.getD true
  | none => true

/-- The severity that the setting of the rule asks for. -/
def severity? (c : Config) (code name : String) : Option Severity :=
  (c.setting? code name).bind RuleSetting.severity

/-- Whether findings with the code are suppressed. -/
def isIgnored (c : Config) (code : String) : Bool := c.ignored.contains code

/-- Whether the rule is run. -/
def runs (c : Config) (rule : Rule) : Bool := c.isEnabled rule.code rule.name

/-- The rule with the severity that the configuration asks for. -/
def weigh (c : Config) (rule : Rule) : Rule :=
  match c.severity? rule.code rule.name with
  | some s => rule.withSeverity s
  | none => rule

/-- The rules that are run, as the configuration weighs them. -/
def select (c : Config) (rules : List Rule) : List Rule := (rules.filter c.runs).map c.weigh

end Config

end DockerfileLint
