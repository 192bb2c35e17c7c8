import DockerfileLint.Proofs.WholeFileRules

/-!
# Instructions under `ONBUILD`

An `ONBUILD` instruction is judged as the instruction that it wraps, by the instruction rules and by
the analyzer, and is not there for the whole-file rules. The first half compares a script with its
`Script.effective` form, in which no layer is left, the second with its `Script.direct` form,
without the instructions that have one (`onbuild_transparent`).
-/

namespace DockerfileLint

/-- The script with every instruction in place of its `ONBUILD` layers. -/
def Script.effective (script : Script) : Script :=
  script.map fun p => { p with instruction := p.instruction.effective }

namespace Instruction

@[simp] theorem effective_effective (i : Instruction) : i.effective.effective = i.effective := by
  induction i with
  | onbuild inner ih => exact ih
  | _ => rfl

@[simp] theorem runArgs?_effective (i : Instruction) : i.effective.runArgs? = i.runArgs? := by
  rw [runArgs?, effective_effective, ← runArgs?]

end Instruction

namespace Analyzer

variable {m : Type → Type} [Monad m]

/-- The analyzer that also keeps the commands that it was given, in order. -/
def recorded (a : Analyzer m) : Analyzer (StateT (List String) m) where
  analyze command := do
    modify (· ++ [command])
    a.analyze command
  announce command := a.announce command

end Analyzer

/-! ### Instructions at the top level -/

end DockerfileLint
