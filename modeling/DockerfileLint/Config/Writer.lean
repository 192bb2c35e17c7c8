import DockerfileLint.Config
import DockerfileLint.Toml.Writer

/-!
# Writing a configuration

The suppressed codes come first, then a table for each rule with the settings that it has, then the
analyzer. Without rules an empty table stands in their place.
-/

namespace DockerfileLint

open Toml (quote quoteAll truth setting)

/-- The lines of a rule's table. -/
def RuleSetting.render (key : String) (s : RuleSetting) : List Char :=
  "[rules.".toList ++ (quote key ++ ("]\n".toList ++
    ((s.enabled.toList.flatMap fun b => setting "enabled" (truth b)) ++
      ((s.severity.toList.flatMap fun v => setting "severity" (quote v.name)) ++ ['\n']))))

/-- The tables of the rules. -/
def RuleTable.render (t : RuleTable) : List Char :=
  match t.entries with
  | [] => "[rules]\n\n".toList
  | entries => entries.flatMap fun e => e.2.render e.1

/-- The table of the analyzer. -/
def AnalyzerSettings.render (s : AnalyzerSettings) : List Char :=
  "[shellcheck]\n".toList ++
    (setting "enabled" (truth s.enabled) ++ (setting "program" (quote s.program) ++
    (setting "shell" (quote s.shell) ++ setting "exclude" (quoteAll s.exclude))))

namespace Config

/-- The configuration as TOML. -/
def render (c : Config) : List Char :=
  setting "ignored" (quoteAll c.ignored) ++ ('\n' :: (c.rules.render ++ c.shellcheck.render))

/-- The comment at the top of a new configuration. -/
def commentLines : List String :=
  ["# docklint configuration",
    "# See https://github.com/docklint/docklint for documentation",
    "#",
    "# Codes listed in `ignored` are never reported (DL or SC codes).",
    "# Rules are keyed by code or name:",
    "#",
    "# [rules.no-latest-tag]",
    "# severity = \"error\"",
    "#",
    "# [rules.DL3008]",
    "# enabled = false"]

/-- The default configuration under its comment. -/
def template : String :=
  String.ofList ((commentLines.flatMap fun line => line.toList ++ ['\n']) ++ '\n' :: render {})

end Config

end DockerfileLint
