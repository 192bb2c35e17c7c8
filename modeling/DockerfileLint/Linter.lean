import DockerfileLint.Analyzer
import DockerfileLint.Config
import DockerfileLint.Result

/-!
# The linter

A linter runs its rules over a script in order, then the shell analyzer if there is one. Linting
keeps the failed checks whose codes are not ignored and sorts them by line. A builder collects
rules, a configuration and an analyzer; the configuration chooses among the rules when the linter is
built.
-/

namespace DockerfileLint

/-- Rules as the configuration chose them, the configuration, and the analyzer if there is one. -/
structure Linter (m : Type → Type) where
  rules : List Rule
  config : Config
  analyzer : Option (Analyzer m)

namespace Linter

variable {m : Type → Type} [Monad m]

/-- The checks of the rules, without the analyzer. -/
def ruleChecks (l : Linter m) (script : Script) : List Check :=
  l.rules.flatMap fun rule => rule.check script

/-- All checks: those of the rules in order, then those of the analyzer. -/
def evaluate (l : Linter m) (script : Script) : m (Except LintError (List Check)) :=
  match l.analyzer with
  | none => pure (.ok (l.ruleChecks script))
  | some a => do
    match ← a.checks script with
    | .error e => pure (.error e)
    | .ok found => pure (.ok (l.ruleChecks script ++ found))

/-- The failed checks that the configuration does not ignore, by line. -/
def report (config : Config) (checks : List Check) : LintResult where
  findings := sortByLine (checks.filter fun c => c.isFinding && !config.isIgnored c.code)
  scriptsChecked := 1

/-- The findings on a script. -/
def lint (l : Linter m) (script : Script) : m (Except LintError LintResult) := do
  match ← l.evaluate script with
  | .error e => pure (.error e)
  | .ok checks => pure (.ok (report l.config checks))

end Linter

/-- What a linter is built from. -/
structure LinterBuilder (m : Type → Type) where
  rules : List Rule := []
  config : Option Config := none
  analyzer : Option (Analyzer m) := none

namespace LinterBuilder

variable {m : Type → Type}

/-- One more rule. -/
def addRule (b : LinterBuilder m) (rule : Rule) : LinterBuilder m :=
  { b with rules := b.rules ++ [rule] }

/-- More rules. -/
def addRules (b : LinterBuilder m) (rules : List Rule) : LinterBuilder m :=
  { b with rules := b.rules ++ rules }

/-- The configuration, in place of an earlier one. -/
def setConfig (b : LinterBuilder m) (config : Config) : LinterBuilder m :=
  { b with config := some config }

/-- The analyzer, in place of an earlier one. -/
def setAnalyzer (b : LinterBuilder m) (analyzer : Analyzer m) : LinterBuilder m :=
  { b with analyzer := some analyzer }

/-- The linter with the rules that the configuration chooses. -/
def build (b : LinterBuilder m) : Linter m where
  rules := (b.config.getD {}).select b.rules
  config := b.config.getD {}
  analyzer := b.analyzer

end LinterBuilder

end DockerfileLint
