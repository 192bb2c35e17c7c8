import DockerfileLint.Result

/-!
# The order of a report

Findings are sorted by line, and those of one line keep their order. `sortByLine_eq_iff` says that
this determines `sortByLine` completely: a list is the sorted one iff its lines do not decrease and
it has the same checks on every line, in the same order. Whatever works line by line therefore
commutes with sorting:

* `sortByLine_congr`: lists that agree line by line are sorted alike;
* `sortByLine_filterMap`: dropping and rewriting checks may come before or after sorting, as long as
  lines stay.
-/

namespace DockerfileLint

/-- The lines of the checks do not decrease. -/
def ByLine (checks : List Check) : Prop := checks.Pairwise fun a b => a.line ≤ b.line

/-- The checks on a line, in order. -/
def atLine (n : Int64) (checks : List Check) : List Check := checks.filter fun c => c.line == n

@[simp] theorem atLine_nil (n : Int64) : atLine n [] = [] := rfl

theorem atLine_cons_of_eq {n : Int64} {c : Check} (h : c.line = n) (checks : List Check) :
    atLine n (c :: checks) = c :: atLine n checks := by
  simp [atLine, h]

theorem atLine_cons_of_ne {n : Int64} {c : Check} (h : c.line ≠ n) (checks : List Check) :
    atLine n (c :: checks) = atLine n checks := by
  simp [atLine, h]

@[simp] theorem atLine_append (n : Int64) (xs ys : List Check) :
    atLine n (xs ++ ys) = atLine n xs ++ atLine n ys := by
  simp [atLine]

@[simp] theorem mem_atLine {n : Int64} {c : Check} {checks : List Check} :
    c ∈ atLine n checks ↔ c ∈ checks ∧ c.line = n := by
  simp [atLine]

theorem atLine_flatMap {α : Type} (n : Int64) (xs : List α) (f : α → List Check) :
    atLine n (xs.flatMap f) = xs.flatMap fun x => atLine n (f x) := by
  simp [atLine, List.filter_flatMap]

theorem atLine_filter (n : Int64) (p : Check → Bool) (checks : List Check) :
    atLine n (checks.filter p) = (atLine n checks).filter p := by
  simp only [atLine, List.filter_filter]
  congr 1
  funext c
  exact Bool.and_comm _ _

/-- Rewriting checks without moving them to another line acts on each line by itself. -/
theorem atLine_filterMap {f : Check → Option Check} (hf : ∀ c c', f c = some c' → c'.line = c.line)
    (n : Int64) (checks : List Check) :
    atLine n (checks.filterMap f) = (atLine n checks).filterMap f := by
  induction checks with
  | nil => rfl
  | cons c checks ih =>
    cases hc : f c with
    | none =>
      rw [List.filterMap_cons_none hc, ih]
      by_cases hn : c.line = n
      · rw [atLine_cons_of_eq hn, List.filterMap_cons_none hc]
      · rw [atLine_cons_of_ne hn]
    | some c' =>
      rw [List.filterMap_cons_some hc]
      have hline := hf c c' hc
      by_cases hn : c.line = n
      · rw [atLine_cons_of_eq (hline.trans hn), atLine_cons_of_eq hn,
          List.filterMap_cons_some hc, ih]
      · rw [atLine_cons_of_ne (hline ▸ hn), atLine_cons_of_ne hn, ih]

/-! ### Sorted lists -/

theorem ByLine.filterMap {f : Check → Option Check} (hf : ∀ c c', f c = some c' → c'.line = c.line)
    {checks : List Check} (h : ByLine checks) : ByLine (checks.filterMap f) := by
  refine List.Pairwise.filterMap f ?_ h
  intro a b hab a' ha b' hb
  rw [hf a a' ha, hf b b' hb]
  exact hab

/-- The first line of a sorted list is the least line of any list that agrees with it line by
line. -/
theorem ByLine.head_le {x y : Check} {xs ys : List Check} (h : ByLine (x :: xs))
    (heq : ∀ n, atLine n (x :: xs) = atLine n ys) (hy : y ∈ ys) : x.line ≤ y.line := by
  have hmem : y ∈ atLine y.line (x :: xs) := by
    rw [heq]
    exact mem_atLine.2 ⟨hy, rfl⟩
  rcases List.mem_cons.1 (mem_atLine.1 hmem).1 with rfl | hin
  · exact Int64.le_refl _
  · exact List.rel_of_pairwise_cons h hin

/-- A sorted list is determined by its checks on each line. -/
theorem ByLine.ext {xs ys : List Check} (hx : ByLine xs) (hy : ByLine ys)
    (h : ∀ n, atLine n xs = atLine n ys) :
    xs = ys := by
  induction xs generalizing ys with
  | nil =>
    cases ys with
    | nil => rfl
    | cons y ys =>
      have := h y.line
      rw [atLine_cons_of_eq rfl] at this
      simp at this
  | cons x xs ih =>
    cases ys with
    | nil =>
      have := h x.line
      rw [atLine_cons_of_eq rfl] at this
      simp at this
    | cons y ys =>
      have hline : x.line = y.line :=
        Int64.le_antisymm (hx.head_le h (List.mem_cons_self ..))
          (hy.head_le (fun n => (h n).symm) (List.mem_cons_self ..))
      have hhead := h x.line
      rw [atLine_cons_of_eq rfl, atLine_cons_of_eq hline.symm, List.cons.injEq] at hhead
      obtain ⟨rfl, htail⟩ := hhead
      congr 1
      refine ih (List.Pairwise.of_cons hx) (List.Pairwise.of_cons hy) fun n => ?_
      by_cases hn : x.line = n
      · rw [← hn, htail]
      · have := h n
        rwa [atLine_cons_of_ne hn, atLine_cons_of_ne hn] at this

/-- The checks on the least line of a sorted list stand in front. -/
theorem ByLine.eq_atLine_append {n : Int64} {checks : List Check} (h : ByLine checks)
    (hn : ∀ c ∈ checks, n ≤ c.line) :
    checks = atLine n checks ++ checks.filter fun c => c.line != n := by
  induction checks with
  | nil => rfl
  | cons c checks ih =>
    have hrest := ih (List.Pairwise.of_cons h) fun d hd => hn d (List.mem_cons_of_mem _ hd)
    by_cases hc : c.line = n
    · rw [atLine_cons_of_eq hc, List.filter_cons_of_neg (by simp [hc]), List.cons_append, ← hrest]
    · -- from here on every line is greater than `n`
      have hgreater : ∀ d ∈ c :: checks, d.line ≠ n := by
        rintro d hd rfl
        rcases List.mem_cons.1 hd with rfl | hd
        · exact hc rfl
        · exact hc (Int64.le_antisymm (List.rel_of_pairwise_cons h hd)
            (hn c (List.mem_cons_self ..)))
      have hnone : atLine n (c :: checks) = [] :=
        List.filter_eq_nil_iff.2 fun d hd => by simpa using hgreater d hd
      have hall : (c :: checks).filter (fun d => d.line != n) = c :: checks :=
        List.filter_eq_self.2 fun d hd => by simpa using hgreater d hd
      rw [hnone, hall, List.nil_append]

/-! ### Sorting -/

theorem decide_line_le_trans (a b c : Check) (hab : decide (a.line ≤ b.line) = true)
    (hbc : decide (b.line ≤ c.line) = true) : decide (a.line ≤ c.line) = true :=
  decide_eq_true (Int64.le_trans (of_decide_eq_true hab) (of_decide_eq_true hbc))

theorem decide_line_le_total (a b : Check) :
    (decide (a.line ≤ b.line) || decide (b.line ≤ a.line)) = true := by
  simpa using Int64.le_total a.line b.line

theorem byLine_sortByLine (checks : List Check) : ByLine (sortByLine checks) := by
  have h : (sortByLine checks).Pairwise fun a b => decide (a.line ≤ b.line) = true :=
    List.pairwise_mergeSort decide_line_le_trans decide_line_le_total checks
  exact h.imp of_decide_eq_true

theorem sortByLine_perm (checks : List Check) : (sortByLine checks).Perm checks :=
  List.mergeSort_perm ..

@[simp] theorem mem_sortByLine {c : Check} {checks : List Check} :
    c ∈ sortByLine checks ↔ c ∈ checks :=
  (sortByLine_perm checks).mem_iff

/-- The checks of one line keep their order. -/
@[simp] theorem atLine_sortByLine (n : Int64) (checks : List Check) :
    atLine n (sortByLine checks) = atLine n checks := by
  have hsub : (atLine n checks).Sublist (sortByLine checks) := by
    refine List.sublist_mergeSort decide_line_le_trans decide_line_le_total ?_ List.filter_sublist
    refine List.pairwise_of_forall_mem_list fun a ha b hb => ?_
    rw [(mem_atLine.1 ha).2, (mem_atLine.1 hb).2]
    exact decide_eq_true (Int64.le_refl n)
  have hfilter : (atLine n checks).Sublist (atLine n (sortByLine checks)) := by
    have := hsub.filter fun c => c.line == n
    rwa [List.filter_eq_self.2 fun c hc => by simpa using (mem_atLine.1 hc).2] at this
  have hlength := ((sortByLine_perm checks).filter fun c => c.line == n).length_eq
  exact (hfilter.eq_of_length hlength.symm).symm

/-- The sorted list is the only one whose lines do not decrease and that has the same checks on
every line, in the same order. -/
theorem sortByLine_eq_iff {xs ys : List Check} :
    sortByLine xs = ys ↔ ByLine ys ∧ ∀ n, atLine n ys = atLine n xs := by
  constructor
  · rintro rfl
    exact ⟨byLine_sortByLine xs, fun n => atLine_sortByLine n xs⟩
  · rintro ⟨hsorted, hlines⟩
    exact (byLine_sortByLine xs).ext hsorted fun n => by rw [atLine_sortByLine, hlines]

/-- Lists that agree line by line are sorted alike. -/
theorem sortByLine_congr {xs ys : List Check} (h : ∀ n, atLine n xs = atLine n ys) :
    sortByLine xs = sortByLine ys :=
  sortByLine_eq_iff.2 ⟨byLine_sortByLine ys, fun n => by rw [atLine_sortByLine, h]⟩

/-- Dropping and rewriting checks may come before or after sorting, as long as lines stay. -/
theorem sortByLine_filterMap {f : Check → Option Check}
    (hf : ∀ c c', f c = some c' → c'.line = c.line) (checks : List Check) :
    sortByLine (checks.filterMap f) = (sortByLine checks).filterMap f := by
  refine sortByLine_eq_iff.2 ⟨(byLine_sortByLine checks).filterMap hf, fun n => ?_⟩
  rw [atLine_filterMap hf, atLine_filterMap hf, atLine_sortByLine]

end DockerfileLint
