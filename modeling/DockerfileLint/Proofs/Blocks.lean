import DockerfileLint.Sequence
import Mathlib.Data.List.Forall2

/-!
# Finding a block with a window

A window of some width that is moved over a list shows the blocks of that length and nothing else
(`mem_windows_iff`). Comparing two lists of one length element by element is comparing them as a
whole (`all_zip_beq_iff`), so that moving a window over a list decides which blocks it has
(`occursIn_iff_isInfix`), and the window always has a width to be moved with
(`occursIn_decides_containment`).
-/

namespace DockerfileLint

variable {α : Type}

/-! ### Windows -/

section Windows

variable {width : Nat} {block : List α}

theorem windows?_eq_none_iff {xs : List α} : windows? width xs = none ↔ width = 0 := by
  simp [windows?]

theorem windows?_of_pos (h : 0 < width) (xs : List α) :
    windows? width xs = some (windows width xs) :=
  if_neg (Nat.ne_of_gt h)

/-- A window stands at the start of a list if the list is long enough, and then shows its first
elements. -/
theorem eq_take_iff_prefix {xs : List α} (h : (xs.take width).length = width) :
    block = xs.take width ↔ block <+: xs ∧ block.length = width := by
  constructor
  · rintro rfl
    exact ⟨List.take_prefix width xs, h⟩
  · rintro ⟨hblock, rfl⟩
    exact List.prefix_iff_eq_take.1 hblock

/-- The windows of a width over a list are its blocks of that length. -/
theorem mem_windows_iff (hwidth : 0 < width) {xs : List α} :
    block ∈ windows width xs ↔ block <:+: xs ∧ block.length = width := by
  induction xs with
  | nil =>
    -- the only block is empty, and no window is
    have hempty : ¬(block = [] ∧ block.length = width) := by
      rintro ⟨rfl, hlength⟩
      exact Nat.ne_of_lt hwidth hlength
    simpa [windows] using hempty
  | cons x xs ih =>
    rw [windows]
    split
    · rename_i hfits
      rw [List.mem_cons, ih, eq_take_iff_prefix hfits, List.infix_cons_iff, or_and_right]
    · -- the list is shorter than the window, and so are its blocks
      rename_i hshort
      have hlt : (x :: xs).length < width := by
        rw [List.length_take] at hshort
        omega
      refine iff_of_false List.not_mem_nil ?_
      rintro ⟨hblock, rfl⟩
      exact Nat.not_le_of_lt hlt hblock.length_le

end Windows

/-! ### Searching -/

section Search

variable [DecidableEq α] {needle hay : List α}

/-- Lists of one length are equal if they agree element by element. The lengths have to be compared
as well: what one list has beyond the other is not looked at. -/
theorem all_zip_beq_iff {xs ys : List α} (h : xs.length = ys.length) :
    ((xs.zip ys).all fun (x, y) => x == y) = true ↔ xs = ys := by
  have hforall : xs = ys ↔ ∀ {x y}, (x, y) ∈ xs.zip ys → x = y := by
    rw [← List.forall₂_eq_eq_eq, List.forall₂_iff_zip, and_iff_right h]
  simp [hforall]

/-- The search finds exactly the blocks of the list: a window of the width of a block is equal to it
where it agrees with it element by element. -/
theorem search?_eq_some_true_iff : search? needle hay = some true ↔ needle <:+: hay := by
  by_cases hempty : needle = []
  · subst hempty
    exact iff_of_true rfl List.nil_infix
  · have hwidth : 0 < needle.length := List.length_pos_iff.2 hempty
    rw [search?, if_neg (by simpa using hempty), windows?_of_pos hwidth, Option.map_some,
      Option.some_inj, List.any_eq_true]
    constructor
    · rintro ⟨window, hwindow, hequal⟩
      obtain ⟨hblock, hlength⟩ := (mem_windows_iff hwidth).1 hwindow
      rwa [← (all_zip_beq_iff hlength).1 hequal]
    · intro hblock
      exact ⟨needle, (mem_windows_iff hwidth).2 ⟨hblock, rfl⟩, (all_zip_beq_iff rfl).2 rfl⟩

theorem search?_eq_some_occursIn (needle hay : List α) :
    search? needle hay = some (occursIn needle hay) :=
  (Option.some_get _).symm

theorem occursIn_iff_isInfix : occursIn needle hay = true ↔ needle <:+: hay := by
  rw [← search?_eq_some_true_iff, search?_eq_some_occursIn, Option.some_inj]

/-- The search for a block decides whether a list has it. It holds of a block exactly if the list is
that block with something before it and something behind it; so it holds of the empty block, and of
none that is longer than the list. A window of width zero, and no other, cannot be moved, and the
search always comes to its answer: it never moves one. -/
theorem occursIn_decides_containment (needle hay : List α) :
    (occursIn needle hay = true ↔ ∃ before after, hay = before ++ needle ++ after) ∧
    occursIn [] hay = true ∧
    (hay.length < needle.length → occursIn needle hay = false) ∧
    (∀ width, windows? width hay = none ↔ width = 0) ∧
    search? needle hay = some (occursIn needle hay) := by
  refine ⟨?_, occursIn_iff_isInfix.2 List.nil_infix, fun hlonger => ?_,
    fun _ => windows?_eq_none_iff, search?_eq_some_occursIn needle hay⟩
  · rw [occursIn_iff_isInfix]
    exact exists₂_congr fun _ _ => eq_comm
  · rw [← Bool.not_eq_true, occursIn_iff_isInfix]
    intro hblock
    exact Nat.not_le_of_lt hlonger hblock.length_le

end Search

/-- A block that is found at the very end, behind a place where all of it but its last word is
found, and a block that is longer than the list. -/
theorem occursIn_decides_containment_overlap :
    occursIn ["-t", "-t", "git"] ["add", "-t", "-t", "-t", "git"] = true ∧
    ["-t", "git"].length < ["-t", "git", "curl"].length ∧
    occursIn ["-t", "git", "curl"] ["-t", "git"] = false := by
  have hlonger : ["-t", "git"].length < ["-t", "git", "curl"].length := by decide
  exact ⟨(occursIn_decides_containment _ _).1.2 ⟨["add", "-t"], [], rfl⟩, hlonger,
    (occursIn_decides_containment _ _).2.2.1 hlonger⟩

end DockerfileLint
