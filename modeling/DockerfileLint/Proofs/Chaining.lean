import DockerfileLint.Proofs.Commands
import DockerfileLint.Proofs.Segments

/-!
# Commands in a row

A control operator between two commands keeps them apart: the segments of the whole are those of the
one and then those of the other (`Shell.segments_append`), whatever the commands start or end with.
So programs are invoked, packages installed and faults found in the whole exactly where they are in
one of the two (`chained_commands`). The one thing that reaches across an operator is a file of
requirements, which exempts the whole instruction from the rule on `pip`.
-/

namespace DockerfileLint

/-- An installer that exempts nothing always finds packages, if only none at all. -/
theorem Installer.exists_packages_of_not_exempt {tool : Installer}
    (h : ∀ segment, tool.exempts segment = false) (words : List String) :
    ∃ xs, tool.packages words = some xs := by
  unfold packages
  rw [if_neg (by simp [h])]
  exact ⟨_, rfl⟩

/-- What a test of commands says of one command and of two others, the rule with that test says as
well. -/
theorem Catalog.passes_run_iff_and {r : Rule} {holds : List String → Bool}
    (h : r.test = onRun holds) {a b c : List String}
    (hholds : holds c = true ↔ holds a = true ∧ holds b = true) :
    r.Passes (.run c) ↔ r.Passes (.run a) ∧ r.Passes (.run b) := by
  rw [passes_run_iff h, passes_run_iff h, passes_run_iff h, hholds]

section Append

variable {op : String} (hop : op ∈ [";", "|", "&&"]) (a b : List String)

include hop

/-! ### Segments -/

namespace Shell

theorem segments_append : segments (a ++ [op] ++ b) = segments a ++ segments b := by
  rw [List.append_assoc, List.singleton_append]
  exact splitWhere_append_cons a (isOperator_iff.2 hop) b

theorem any_segments_append_iff (asks : List String → Bool) :
    (segments (a ++ [op] ++ b)).any asks = true ↔
      (segments a).any asks = true ∨ (segments b).any asks = true := by
  rw [segments_append hop, List.any_append, Bool.or_eq_true]

theorem not_any_segments_append_iff (asks : List String → Bool) :
    (!(segments (a ++ [op] ++ b)).any asks) = true ↔
      (!(segments a).any asks) = true ∧ (!(segments b).any asks) = true := by
  simp only [Bool.not_eq_true', ← Bool.not_eq_true, any_segments_append_iff hop, not_or]

end Shell

/-! ### Packages -/

namespace Installer

variable (tool : Installer)

/-- The packages of the whole are those of the one and then those of the other, unless one of them
is exempt. -/
theorem packages_append :
    tool.packages (a ++ [op] ++ b) =
      (tool.packages a).bind fun xs => (tool.packages b).map (xs ++ ·) := by
  simp only [packages, Shell.segments_append hop, List.filter_append, List.any_append]
  by_cases ha : ((Shell.segments a).filter tool.installs).any tool.exempts = true
  · simp only [ha, Bool.true_or, if_true, Option.bind_none]
  · by_cases hb : ((Shell.segments b).filter tool.installs).any tool.exempts = true
    · simp only [ha, hb, Bool.or_true, if_true, Option.map_none, Option.bind_fun_none]
    · simp only [ha, hb, Bool.or_false, if_false, Option.bind_some, Option.map_some,
        List.flatMap_append, List.filter_append, Bool.false_eq_true]

theorem packages_append_eq_none_iff :
    tool.packages (a ++ [op] ++ b) = none ↔ tool.packages a = none ∨ tool.packages b = none := by
  rw [packages_append hop]
  cases tool.packages a <;> simp

theorem allPinned_append_iff :
    tool.allPinned (a ++ [op] ++ b) = true ↔
      tool.packages a = none ∨ tool.packages b = none ∨
      (tool.allPinned a = true ∧ tool.allPinned b = true) := by
  unfold allPinned
  rw [packages_append hop]
  cases tool.packages a with
  | none => simp
  | some xs =>
    cases tool.packages b with
    | none => simp
    | some ys => simp [List.all_append]

theorem allPinned_append_iff_of_not_exempt (h : ∀ segment, tool.exempts segment = false) :
    tool.allPinned (a ++ [op] ++ b) = true ↔ tool.allPinned a = true ∧ tool.allPinned b = true := by
  obtain ⟨xs, hxs⟩ := exists_packages_of_not_exempt h a
  obtain ⟨ys, hys⟩ := exists_packages_of_not_exempt h b
  rw [allPinned_append_iff hop, hxs, hys]
  simp

end Installer

/-! ### Rules -/

namespace Catalog

/-- The rules on single segments and on the packages of installers that exempt nothing. -/
theorem passes_append_iff : ∀ r ∈ [noCd, noSudo, useShell, aptGetPinned, npmPinned, apkAddPinned],
    r.Passes (.run (a ++ [op] ++ b)) ↔ r.Passes (.run a) ∧ r.Passes (.run b) := by
  have hsegments := Shell.not_any_segments_append_iff hop a b
  have hpackages := fun tool => Installer.allPinned_append_iff_of_not_exempt hop a b tool
  simp only [List.forall_mem_cons, List.not_mem_nil, false_implies, implies_true, and_true]
  refine ⟨?noCd, ?noSudo, ?useShell, ?apt, ?npm, ?apk⟩
  case noCd => exact passes_run_iff_and rfl (hsegments _)
  case noSudo => exact passes_run_iff_and rfl (hsegments _)
  case useShell => exact passes_run_iff_and rfl (hsegments _)
  case apt => exact passes_run_iff_and rfl (hpackages _ fun _ => rfl)
  case npm => exact passes_run_iff_and rfl (hpackages _ fun _ => rfl)
  case apk => exact passes_run_iff_and rfl (hpackages _ fun _ => rfl)

theorem passes_pipPinned_append_iff :
    pipPinned.Passes (.run (a ++ [op] ++ b)) ↔
      Installer.pip.packages a = none ∨ Installer.pip.packages b = none ∨
        (pipPinned.Passes (.run a) ∧ pipPinned.Passes (.run b)) := by
  have htest : pipPinned.test = onRun Installer.pip.allPinned := rfl
  rw [passes_run_iff htest, passes_run_iff htest, passes_run_iff htest,
    Installer.allPinned_append_iff hop]

end Catalog

end Append

/-- Commands in a row are compositional. The segments of the whole are those of the one and then
those of the other, and a program is invoked by the whole if and only if it is by one of the two.
The packages of the whole are those of both; a file of requirements on either side exempts all from
`pip`. So the whole passes each of six rules if and only if both commands do, and the rule on `pip`
if and only if one of them is exempt or both pass. -/
theorem chained_commands {op : String} (hop : op ∈ [";", "|", "&&"]) {a b c : List String}
    (hc : c = a ++ [op] ++ b) :
    Shell.segments c = Shell.segments a ++ Shell.segments b ∧
    (∀ program, Shell.invokes c program = true ↔
      Shell.invokes a program = true ∨ Shell.invokes b program = true) ∧
    (∀ tool ∈ [Installer.apt, Installer.apk, Installer.npm], ∃ xs ys,
      tool.packages a = some xs ∧ tool.packages b = some ys ∧ tool.packages c = some (xs ++ ys)) ∧
    (Installer.pip.packages c = none ↔
      Installer.pip.packages a = none ∨ Installer.pip.packages b = none) ∧
    (∀ xs ys, Installer.pip.packages a = some xs → Installer.pip.packages b = some ys →
      Installer.pip.packages c = some (xs ++ ys)) ∧
    (∀ r ∈ [Catalog.noCd, Catalog.noSudo, Catalog.useShell, Catalog.aptGetPinned, Catalog.npmPinned,
      Catalog.apkAddPinned], r.Passes (.run c) ↔ r.Passes (.run a) ∧ r.Passes (.run b)) ∧
    (Catalog.pipPinned.Passes (.run c) ↔
      Installer.pip.packages a = none ∨ Installer.pip.packages b = none ∨
        (Catalog.pipPinned.Passes (.run a) ∧ Catalog.pipPinned.Passes (.run b))) := by
  subst hc
  have hexempt : ∀ tool ∈ [Installer.apt, Installer.apk, Installer.npm],
      ∀ segment, tool.exempts segment = false := by
    simp [Installer.apt, Installer.apk, Installer.npm]
  refine ⟨Shell.segments_append hop a b, fun _ => Shell.any_segments_append_iff hop a b _,
    fun tool htool => ?_, Installer.packages_append_eq_none_iff hop a b _, fun xs ys hxs hys => ?_,
    Catalog.passes_append_iff hop a b,
    Catalog.passes_pipPinned_append_iff hop a b⟩
  · obtain ⟨xs, hxs⟩ := Installer.exists_packages_of_not_exempt (hexempt tool htool) a
    obtain ⟨ys, hys⟩ := Installer.exists_packages_of_not_exempt (hexempt tool htool) b
    refine ⟨xs, ys, hxs, hys, ?_⟩
    rw [Installer.packages_append hop, hxs, hys]
    rfl
  · rw [Installer.packages_append hop, hxs, hys]
    rfl

/-- A flag at the end of the first command does not take the first word of the second, which starts
with an operator. -/
theorem chained_commands_flag :
    let a := ["apk", "add", "git=2", "-t"]
    let b := ["&&", "sudo", "apk", "add", "curl"]
    Installer.apk.packages (a ++ [";"] ++ b) = some ["git=2", "sudo", "curl"] ∧
      (Catalog.apkAddPinned.Passes (.run (a ++ [";"] ++ b)) ↔
        Catalog.apkAddPinned.Passes (.run a) ∧ Catalog.apkAddPinned.Passes (.run b)) := by
  intro a b
  have hop : ";" ∈ [";", "|", "&&"] := by decide
  obtain ⟨-, -, htools, -, -, hrules, -⟩ := chained_commands hop (rfl : a ++ [";"] ++ b = _)
  obtain ⟨xs, ys, hxs, hys, hall⟩ := htools Installer.apk (by simp)
  have ha : Installer.apk.packages a = some ["git=2"] := by decide
  have hb : Installer.apk.packages b = some ["sudo", "curl"] := by decide
  cases ha.symm.trans hxs
  cases hb.symm.trans hys
  exact ⟨hall, hrules Catalog.apkAddPinned (by simp)⟩

end DockerfileLint
