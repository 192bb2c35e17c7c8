import DockerfileLint.Config
import DockerfileLint.Toml.Reader

/-!
# Reading a configuration

A configuration is a TOML table. Each known key is read by itself and has its own default; unknown
keys are passed over. The entry of a rule and the section on the analyzer may also be written as the
array of their fields, in which trailing ones may be missing and further ones are passed over. A
date in their place has no known field.
-/

namespace DockerfileLint

open Toml (Value Table)

/-- A truth value. -/
def Toml.Value.boolean? : Value → Option Bool
  | .boolean b => some b
  | _ => none

/-- A text. -/
def Toml.Value.string? : Value → Option String
  | .string s => some s
  | _ => none

/-- An array of texts. -/
def Toml.Value.strings? : Value → Option (List String)
  | .array items => items.mapM Value.string?
  | _ => none

/-- A severity: its name, or a table from its name to an empty table or an empty array. -/
def Severity.ofToml? : Value → Option Severity
  | .string s => Severity.ofName? s
  | .table [(name, .table [])] => Severity.ofName? name
  | .table [(name, .array [])] => Severity.ofName? name
  | _ => none

/-- What `read` makes of a value that may be missing. -/
def Toml.field? {α : Type} (read : Value → Option α) : Option Value → Option (Option α)
  | none => some none
  | some v => (read v).map some

/-- The values of named fields, each as far as it is given. -/
def Toml.slots? (names : List String) : Value → Option (List (Option Value))
  | .table members => some (names.map fun name => members.lookup name)
  | .array items => some (List.range names.length |>.map fun i => items[i]?)
  | .moment _ => some (names.map fun _ => none)
  | _ => none

/-- Reads the setting of a rule. -/
def RuleSetting.ofToml? (v : Value) : Option RuleSetting :=
  match Toml.slots? ["enabled", "severity"] v with
  | some [enabled, severity] => do
    pure ⟨← Toml.field? Value.boolean? enabled, ← Toml.field? Severity.ofToml? severity⟩
  | _ => none

/-- Reads the settings of rules. -/
def RuleTable.ofToml? : Value → Option RuleTable
  | .table members =>
    members.foldlM (fun t member => (RuleSetting.ofToml? member.2).map (t.insert member.1))
      RuleTable.empty
  | _ => none

/-- Reads the section on the analyzer. -/
def AnalyzerSettings.ofToml? (v : Value) : Option AnalyzerSettings :=
  match Toml.slots? ["enabled", "program", "shell", "exclude"] v with
  | some [enabled, program, shell, exclude] => do
    let enabled ← Toml.field? Value.boolean? enabled
    let program ← Toml.field? Value.string? program
    let shell ← Toml.field? Value.string? shell
    let exclude ← Toml.field? Value.strings? exclude
    let default : AnalyzerSettings := {}
    pure ⟨enabled.getD default.enabled, program.getD default.program, shell.getD default.shell,
      exclude.getD default.exclude⟩
  | _ => none

namespace Config

/-- Reads a configuration. -/
def ofTable? (t : Table) : Option Config := do
  let ignored ← Toml.field? Value.strings? (t.lookup "ignored")
  let rules ← Toml.field? RuleTable.ofToml? (t.lookup "rules")
  let shellcheck ← Toml.field? AnalyzerSettings.ofToml? (t.lookup "shellcheck")
  let default : Config := {}
  pure ⟨ignored.getD default.ignored, rules.getD default.rules, shellcheck.getD default.shellcheck⟩

/-- The configuration that a text holds. -/
def parse? (text : String) : Option Config := (Toml.parse? text).bind ofTable?

end Config

end DockerfileLint
