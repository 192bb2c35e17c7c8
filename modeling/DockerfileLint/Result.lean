import DockerfileLint.Check

/-!
# Results

The findings of one or more scripts, in order, with the number of scripts, and how many findings
there are of each severity.
-/

namespace DockerfileLint

/-- The number of findings of each severity. -/
structure Counts where
  errors : Nat
  warnings : Nat
  infos : Nat
  styles : Nat
  deriving DecidableEq, Repr

/-- Findings and the number of scripts they come from. -/
structure LintResult where
  findings : List Check
  scriptsChecked : UInt64
  deriving DecidableEq, Repr

namespace LintResult

/-- No script and no finding. -/
def empty : LintResult := ⟨[], 0⟩

/-- The findings of one severity, in order. -/
def bySeverity (r : LintResult) (severity : Severity) : List Check :=
  r.findings.filter fun c => c.metadata.severity == severity

/-- The number of findings of each severity. -/
def counts (r : LintResult) : Counts where
  errors := (r.bySeverity .error).length
  warnings := (r.bySeverity .warning).length
  infos := (r.bySeverity .info).length
  styles := (r.bySeverity .style).length

/-- Whether there is a finding. -/
def hasFindings (r : LintResult) : Bool := !r.findings.isEmpty

/-- Whether there is a finding of severity `error`. -/
def hasErrors (r : LintResult) : Bool := r.findings.any fun c => c.metadata.severity == .error

/-- One more finding at the end. -/
def push (r : LintResult) (c : Check) : LintResult := { r with findings := r.findings ++ [c] }

/-- The findings and the scripts of two results, one after the other. -/
def extend (r other : LintResult) : LintResult where
  findings := r.findings ++ other.findings
  scriptsChecked := r.scriptsChecked + other.scriptsChecked

end LintResult

/-- The checks by line; those of one line keep their order. -/
def sortByLine (checks : List Check) : List Check :=
  checks.mergeSort fun a b => decide (a.line ≤ b.line)

end DockerfileLint
