import DockerfileLint.Proofs.Catalog
import Mathlib.Data.List.Forall2

/-!
# Rules about commands

Many rules of the catalog judge the words of `RUN` and hold of every other instruction. What such a
rule says about a script is then a property of words: `Rule.FaultsRun` gives the words that it finds
fault with, also under `ONBUILD`, and `Catalog.faultsRun_of_onRun` reads them off the test of the
rule.
-/

namespace DockerfileLint

/-- The instruction is a `RUN` with these words, under any number of `ONBUILD` layers. -/
def Instruction.Runs (i : Instruction) (args : List String) : Prop :=
  ∃ layers, i = Nat.repeat onbuild layers (run args)

namespace Instruction

theorem effective_repeat_onbuild (i : Instruction) (layers : Nat) :
    (Nat.repeat onbuild layers i).effective = i.effective := by
  induction layers with
  | zero => rfl
  | succ layers ih => exact ih

theorem effective_eq_run_iff {i : Instruction} {args : List String} :
    i.effective = run args ↔ i.Runs args := by
  constructor
  · intro h
    induction i with
    | onbuild inner ih =>
      obtain ⟨layers, rfl⟩ := ih h
      exact ⟨layers + 1, rfl⟩
    | _ => exact ⟨0, h⟩
  · rintro ⟨layers, rfl⟩
    exact effective_repeat_onbuild (run args) layers

theorem runArgs?_eq_some_iff {i : Instruction} {args : List String} :
    i.runArgs? = some args ↔ i.Runs args := by
  rw [← effective_eq_run_iff, runArgs?]
  cases i.effective <;> simp

end Instruction

namespace Rule

/-- The rule finds fault with certain commands and with nothing else. It has one check for each
instruction of a script, in order and at its place, and the check fails exactly if the instruction
is a `RUN`, under any number of `ONBUILD` layers, whose words are at fault. -/
def FaultsRun (r : Rule) (fault : List String → Prop) : Prop :=
  ∀ script : Script,
    List.Forall₂ (fun p c => c.metadata = r.metadata ∧ c.filename = p.source ∧ c.line = p.line ∧
      (c.success = false ↔ ∃ args, p.instruction.Runs args ∧ fault args)) script (r.check script)

/-- The rule keeps an instruction: its check there holds, whatever the place. -/
def Passes (r : Rule) (i : Instruction) : Prop :=
  ∀ source line, r.check [⟨i, source, line⟩] = [⟨r.metadata, source, line, true⟩]

theorem FaultsRun.congr {r : Rule} {fault fault' : List String → Prop} (h : r.FaultsRun fault)
    (hfault : ∀ args, fault args ↔ fault' args) : r.FaultsRun fault' := by
  obtain rfl : fault = fault' := funext fun args => propext (hfault args)
  exact h

end Rule

namespace Catalog

variable {r : Rule} {holds : List String → Bool}

theorem faultsRun_of_onRun (h : r.test = onRun holds) :
    r.FaultsRun fun args => holds args = false := by
  intro script
  rw [Rule.check_of_each h, List.forall₂_map_right_iff, List.forall₂_same]
  refine fun p _ => ⟨rfl, rfl, rfl, ?_⟩
  simp only [← Instruction.effective_eq_run_iff]
  cases p.instruction.effective <;> simp

theorem passes_run_iff (h : r.test = onRun holds) (args : List String) :
    r.Passes (.run args) ↔ holds args = true := by
  simp [Rule.Passes, Rule.check_of_each h, Instruction.effective]

end Catalog

end DockerfileLint
