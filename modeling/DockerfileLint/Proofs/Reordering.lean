import DockerfileLint.Proofs.Catalog
import DockerfileLint.Proofs.Linting
import DockerfileLint.Proofs.WholeFileRules
import Mathlib.Data.List.Basic

/-!
# The order of instructions

Scripts that hold the same instructions at the same lines of one file are linted alike, in whatever
order the instructions are listed (`lint_perm`). A report is determined line by line, and every part
of evaluation looks at one line only, except the whole-file rules. Those of the catalog only count
instructions, so they do not see the order either (`Catalog.orderFree`).
-/

namespace DockerfileLint

/-! ### Scripts line by line -/

/-- The instructions at a line, in order. -/
def instructionsAt (n : Int64) (script : Script) : Script := script.filter fun p => p.line == n

/-- What every instruction contributes at its own line is, on each line, what the instructions there
contribute. -/
theorem atLine_flatMap_script {f : Positioned → List Check} (hf : ∀ p, ∀ c ∈ f p, c.line = p.line)
    (n : Int64) (script : Script) :
    atLine n (script.flatMap f) = (instructionsAt n script).flatMap f := by
  rw [atLine_flatMap]
  induction script with
  | nil => rfl
  | cons p script ih =>
    rw [List.flatMap_cons, ih, instructionsAt, instructionsAt]
    by_cases hp : p.line = n
    · have hall : atLine n (f p) = f p :=
        List.filter_eq_self.2 fun c hc => by simpa [hp] using hf p c hc
      rw [hall, List.filter_cons_of_pos (by simpa using hp), List.flatMap_cons]
    · have hnone : atLine n (f p) = [] :=
        List.filter_eq_nil_iff.2 fun c hc => by simpa [hf p c hc] using hp
      rw [hnone, List.filter_cons_of_neg (by simpa using hp), List.nil_append]

/-- Scripts with the same instructions agree on every line that at most one instruction has. -/
theorem instructionsAt_eq_of_perm {s s' : Script} (hperm : s.Perm s')
    (hlines : (s.map Positioned.line).Nodup) (n : Int64) :
    instructionsAt n s = instructionsAt n s' := by
  have hfilter : (instructionsAt n s).Perm (instructionsAt n s') := hperm.filter _
  have hsub : ((instructionsAt n s).map Positioned.line).Nodup :=
    hlines.sublist (List.filter_sublist.map _)
  have hline : ∀ p ∈ instructionsAt n s, p.line = n := fun p hp => by
    simpa using (List.mem_filter.1 hp).2
  match hs : instructionsAt n s with
  | [] =>
    rw [hs] at hfilter
    exact (List.nil_perm.1 hfilter).symm
  | [p] =>
    rw [hs] at hfilter
    exact List.singleton_perm.1 hfilter
  | p :: q :: rest =>
    -- two instructions at the same line
    rw [hs] at hsub hline
    have hpq : p.line = q.line := (hline p (by simp)).trans (hline q (by simp)).symm
    simp [hpq] at hsub

/-! ### Rules and the analyzer line by line -/

/-- Whether a test does not depend on the order of the instructions. -/
def Test.OrderFree : Test → Prop
  | .each _ => True
  | .whole holds => ∀ is js : List Instruction, is.Perm js → holds is = holds js

/-- The file that a check on the whole script names. -/
def fileName (script : Script) : String := (script.head?.map Positioned.source).getD ""

theorem fileName_eq_of_perm {s s' : Script} (hperm : s.Perm s')
    (hsource : ∀ p ∈ s, ∀ q ∈ s, p.source = q.source) :
    fileName s = fileName s' := by
  cases s with
  | nil => rw [List.nil_perm.1 hperm]
  | cons p s =>
    cases s' with
    | nil => exact absurd (List.perm_nil.1 hperm) (by simp)
    | cons q s' => exact hsource p (by simp) q (hperm.mem_iff.2 (by simp))

/-- Every instruction is analyzed by itself. -/
theorem Analyzer.remarkChecks_eq_flatMap (a : Analyzer Id) (script : Script) :
    a.remarkChecks script = script.flatMap fun p => a.remarkChecks [p] := by
  have hcommands : shellCommands script = script.flatMap fun p => shellCommands [p] := by
    unfold shellCommands
    rw [List.filterMap_eq_flatMap_toList]
    congr 1
  rw [remarkChecks, hcommands, List.flatMap_assoc]
  rfl

theorem Analyzer.line_of_mem_remarkChecks_singleton (a : Analyzer Id) (p : Positioned) (c : Check)
    (hc : c ∈ a.remarkChecks [p]) : c.line = p.line := by
  obtain ⟨cmd, hcmd, hfound⟩ := List.mem_flatMap.1 hc
  obtain ⟨d, -, rfl⟩ := ShellCommand.eq_of_mem_findings hfound
  obtain ⟨q, hq, -, hline⟩ := exists_of_mem_shellCommands hcmd
  rw [List.mem_singleton.1 hq] at hline
  exact hline

section Perm

variable {s s' : Script} (hperm : s.Perm s')
  (hsource : ∀ p ∈ s, ∀ q ∈ s, p.source = q.source) (hlines : (s.map Positioned.line).Nodup)

include hperm hsource hlines in
theorem Rule.atLine_check_eq_of_perm {r : Rule} (hr : r.test.OrderFree) (n : Int64) :
    atLine n (r.check s) = atLine n (r.check s') := by
  rcases r with ⟨name, metadata, holds | holds⟩
  · show atLine n (s.map _) = atLine n (s'.map _)
    rw [List.map_eq_flatMap, List.map_eq_flatMap, atLine_flatMap_script (by simp),
      atLine_flatMap_script (by simp), instructionsAt_eq_of_perm hperm hlines]
  · have hholds : holds (s.map Positioned.instruction) = holds (s'.map Positioned.instruction) :=
      hr _ _ (hperm.map _)
    show atLine n [⟨metadata, fileName s, wholeFileLine, _⟩] =
      atLine n [⟨metadata, fileName s', wholeFileLine, _⟩]
    rw [fileName_eq_of_perm hperm hsource, hholds]

include hperm hlines in
theorem Analyzer.atLine_remarkChecks_eq_of_perm (a : Analyzer Id) (n : Int64) :
    atLine n (a.remarkChecks s) = atLine n (a.remarkChecks s') := by
  rw [remarkChecks_eq_flatMap, remarkChecks_eq_flatMap a s',
    atLine_flatMap_script a.line_of_mem_remarkChecks_singleton,
    atLine_flatMap_script a.line_of_mem_remarkChecks_singleton,
    instructionsAt_eq_of_perm hperm hlines]

include hperm hsource hlines in
theorem Linter.atLine_allChecks_eq_of_perm {l : Linter Id}
    (hrules : ∀ r ∈ l.rules, r.test.OrderFree) (n : Int64) :
    atLine n (l.allChecks s) = atLine n (l.allChecks s') := by
  have hchecks : atLine n (l.ruleChecks s) = atLine n (l.ruleChecks s') := by
    rw [ruleChecks, ruleChecks, atLine_flatMap, atLine_flatMap]
    exact List.flatMap_congr fun r hr =>
      r.atLine_check_eq_of_perm hperm hsource hlines (hrules r hr) n
  rw [allChecks, allChecks, atLine_append, atLine_append, hchecks, atLine_flatMap, atLine_flatMap]
  congr 1
  exact List.flatMap_congr fun a _ => a.atLine_remarkChecks_eq_of_perm hperm hlines n

end Perm

/-! ### The catalog -/

/-- No rule of the catalog depends on the order of the instructions: the whole-file rules count
them. -/
theorem Catalog.orderFree : ∀ r ∈ Catalog.all, r.test.OrderFree := by
  intro r hr
  cases htest : r.test with
  | each holds => trivial
  | whole holds =>
    obtain ⟨quotas, hquotas⟩ := Catalog.exists_quotas hr htest
    intro is js hperm
    rw [← Bool.not_inj_iff, ← Bool.coe_false_iff_false, hquotas, hquotas]
    exact Quota.reached_iff_of_perm hperm

/-- The order in which a script lists its instructions does not matter. Under any configuration and
any analyzer that is a function of the command, two scripts with the same instructions, all of one
file and at different lines, have the same report, as long as the analyzer answers every command. -/
theorem lint_perm (analyzer : Option (Analyzer Id)) (config : Config) {s s' : Script}
    (hperm : s.Perm s') (hsource : ∀ p ∈ s, ∀ q ∈ s, p.source = q.source)
    (hlines : (s.map Positioned.line).Nodup) (hanswers : ∀ a ∈ analyzer, a.Answers s) :
    ∃ r, (Catalog.linter analyzer config).lint s = .ok r ∧
      (Catalog.linter analyzer config).lint s' = .ok r := by
  have hanswers' : ∀ a ∈ analyzer, a.Answers s' := by
    intro a ha cmd hcmd
    exact hanswers a ha cmd ((hperm.filterMap _).mem_iff.2 hcmd)
  have hrules : ∀ r ∈ (Catalog.linter analyzer config).rules, r.test.OrderFree := by
    intro r hr
    obtain ⟨q, hq, htest⟩ := Config.exists_of_mem_select hr
    rw [htest]
    exact Catalog.orderFree q hq
  refine ⟨_, Linter.lint_of_answers hanswers, ?_⟩
  rw [Linter.lint_of_answers hanswers']
  exact congrArg _ (Linter.report_congr fun n =>
    (Linter.atLine_allChecks_eq_of_perm hperm hsource hlines hrules n).symm)

/-- Two commands with remarks, listed from the last line up. -/
theorem lint_perm_reversed :
    let script : Script :=
      [⟨.fromImage (.untagged "debian"), "Dockerfile", 1⟩, ⟨.run ["cd", "/tmp"], "Dockerfile", 2⟩,
        ⟨.onbuild (.run ["wget", "x", "&&", "curl", "y"]), "Dockerfile", 3⟩]
    let analyzer : Analyzer Id := .silent fun command => pure (.ok [⟨2086, .info, command⟩])
    ∃ r, (Catalog.linter (some analyzer) {}).lint script = .ok r ∧
      (Catalog.linter (some analyzer) {}).lint script.reverse = .ok r := by
  intro script analyzer
  refine lint_perm (some analyzer) {} script.reverse_perm.symm (by decide) (by decide) ?_
  intro a ha cmd _
  cases ha
  exact ⟨_, rfl⟩

end DockerfileLint
