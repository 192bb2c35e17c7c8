import DockerfileLint.Proofs.Blocks
import DockerfileLint.Proofs.Text
import DockerfileLint.Shell

/-!
# Pieces and segments

`splitWhere` cuts a list at marks, and what it gives are the blocks without marks that cannot be
made longer (`mem_splitWhere_iff`); a mark between two lists cuts them apart
(`splitWhere_append_cons`), so that a block without marks is found in the whole if and only if it is
found in a piece (`infix_iff_exists_mem_splitWhere`). Nothing is lost: the pieces with the marks
between them are the list again, and no other pieces are (`eq_splitWhere_iff`). For the words of a
command the marks are the control operators and the pieces its segments.
-/

namespace DockerfileLint

variable {α : Type}

/-- A block without an element lies on one side of it. -/
theorem infix_append_cons_iff {needle xs ys : List α} {x : α} (hx : x ∉ needle) :
    needle <:+: xs ++ x :: ys ↔ needle <:+: xs ∨ needle <:+: ys := by
  constructor
  · rintro ⟨before, after, h⟩
    rcases List.append_eq_append_iff.1 h with ⟨rest, rfl, -⟩ | ⟨rest, hrest, hafter⟩
    · exact .inl ⟨before, rest, rfl⟩
    · -- the block ends behind `xs`; if it starts in `xs` as well, the element is in it
      rcases List.append_eq_append_iff.1 hrest with ⟨start, rfl, rfl⟩ | ⟨gap, rfl, rfl⟩
      · cases rest with
        | nil => exact .inl ⟨before, [], by simp⟩
        | cons y rest =>
          obtain rfl : x = y := by simpa using congrArg List.head? hafter
          simp at hx
      · cases gap with
        | nil =>
          cases needle with
          | nil => exact .inl List.nil_infix
          | cons y needle =>
            obtain rfl : x = y := by simpa using congrArg List.head? hafter
            simp at hx
        | cons y gap =>
          obtain ⟨-, rfl⟩ := List.cons.inj hafter
          exact .inr ⟨gap, after, rfl⟩
  · rintro (⟨before, after, rfl⟩ | ⟨before, after, rfl⟩)
    · exact ⟨before, after ++ x :: ys, by simp⟩
    · exact ⟨xs ++ x :: before, after, by simp⟩

/-! ### Pieces -/

/-- A piece of a list between marks: a block without marks that cannot be made longer at either
end. -/
def IsPiece (mark : α → Prop) (xs piece : List α) : Prop :=
  (∀ x ∈ piece, ¬mark x) ∧
    ∃ before after, xs = before ++ piece ++ after ∧ (∀ x ∈ before.getLast?, mark x) ∧
      ∀ x ∈ after.head?, mark x

section Pieces

variable {mark : α → Prop} {xs ys piece : List α} {x : α}

theorem isPiece_self (h : ∀ x ∈ xs, ¬mark x) : IsPiece mark xs xs :=
  ⟨h, [], [], by simp, by simp, by simp⟩

theorem IsPiece.append_left (h : IsPiece mark ys piece) (hx : mark x) :
    IsPiece mark (xs ++ x :: ys) piece := by
  obtain ⟨hfree, before, after, rfl, hbefore, hafter⟩ := h
  refine ⟨hfree, xs ++ x :: before, after, by simp, ?_, hafter⟩
  -- the last element before the piece is the mark itself where nothing else stands between them
  cases before with
  | nil => simpa using hx
  | cons y before => simpa using hbefore

theorem IsPiece.append_right (h : IsPiece mark xs piece) (hx : mark x) :
    IsPiece mark (xs ++ x :: ys) piece := by
  obtain ⟨hfree, before, after, rfl, hbefore, hafter⟩ := h
  refine ⟨hfree, before, after ++ x :: ys, by simp, hbefore, ?_⟩
  cases after with
  | nil => simpa using hx
  | cons y after => simpa using hafter

end Pieces

section Cuts

variable {p : α → Bool}

theorem splitWhere_append_cons (xs : List α) {x : α} (hx : p x = true) (ys : List α) :
    splitWhere p (xs ++ x :: ys) = splitWhere p xs ++ splitWhere p ys := by
  simp only [splitWhere_eq_splitOnP]
  exact List.splitOnP_append_cons xs ys hx

theorem splitWhere_of_forall {xs : List α} (h : ∀ x ∈ xs, p x = false) :
    splitWhere p xs = [xs] := by
  induction xs with
  | nil => rfl
  | cons x xs ih =>
    obtain ⟨hx, hxs⟩ := List.forall_mem_cons.1 h
    rw [splitWhere, hx, ih hxs]
    rfl

/-- Induction along the cuts: a list has no marks, or it is cut at one of them into two lists. -/
theorem cut_induction (p : α → Bool) {motive : List α → Prop}
    (free : ∀ xs, (∀ x ∈ xs, p x = false) → motive xs)
    (cut : ∀ xs x ys, p x = true → motive xs → motive ys → motive (xs ++ x :: ys)) (xs : List α) :
    motive xs := by
  by_cases hmark : ∃ x ∈ xs, p x = true
  · obtain ⟨x, hmem, hx⟩ := hmark
    obtain ⟨before, after, rfl⟩ := List.append_of_mem hmem
    exact cut before x after hx (cut_induction p free cut before) (cut_induction p free cut after)
  · exact free xs fun x hx => by simpa using fun h => hmark ⟨x, hx, h⟩
termination_by xs.length

/-- A cut gives pieces: where there is a mark, the piece lies on one side of it. -/
theorem isPiece_of_mem_splitWhere {xs piece : List α} (h : piece ∈ splitWhere p xs) :
    IsPiece (fun x => p x = true) xs piece := by
  induction xs using cut_induction p with
  | free xs hfree =>
    rw [splitWhere_of_forall hfree, List.mem_singleton] at h
    subst h
    exact isPiece_self fun x hx => by simp [hfree x hx]
  | cut xs x ys hx ihxs ihys =>
    rw [splitWhere_append_cons xs hx, List.mem_append] at h
    rcases h with h | h
    · exact (ihxs h).append_right hx
    · exact (ihys h).append_left hx

/-- A block without marks occurs in a list if and only if it occurs in one of the pieces. -/
theorem infix_iff_exists_mem_splitWhere {needle xs : List α} (h : ∀ x ∈ needle, p x = false) :
    needle <:+: xs ↔ ∃ piece ∈ splitWhere p xs, needle <:+: piece := by
  induction xs using cut_induction p with
  | free xs hfree => simp [splitWhere_of_forall hfree]
  | cut xs x ys hx ihxs ihys =>
    have hneedle : x ∉ needle := fun hmem => by simp [h x hmem] at hx
    rw [infix_append_cons_iff hneedle, ihxs, ihys, splitWhere_append_cons xs hx]
    simp only [List.mem_append, or_and_right, exists_or]

/-- Cutting a list gives exactly its pieces between the marks. -/
theorem mem_splitWhere_iff {xs piece : List α} :
    piece ∈ splitWhere p xs ↔ IsPiece (fun x => p x = true) xs piece := by
  refine ⟨isPiece_of_mem_splitWhere, ?_⟩
  rintro ⟨hfree, before, after, rfl, hbefore, hafter⟩
  have hpiece : splitWhere p piece = [piece] := splitWhere_of_forall fun x hx => by
    simpa using hfree x hx
  -- what stands on either side of the piece is empty or ends with a mark
  have hright : piece ∈ splitWhere p (piece ++ after) := by
    cases after with
    | nil => simp [hpiece]
    | cons x after => simp [splitWhere_append_cons piece (hafter x rfl), hpiece]
  rw [List.append_assoc]
  rcases List.eq_nil_or_concat before with rfl | ⟨before, x, rfl⟩
  · exact hright
  · rw [List.concat_eq_append, List.append_assoc, List.singleton_append,
      splitWhere_append_cons before (hbefore x (by simp))]
    exact List.mem_append_right _ hright

/-! ### Pieces with the marks between them -/

/-- Each piece followed by its mark, the last one by nothing. -/
def interleave (pieces : List (List α)) (marks : List α) : List α :=
  (pieces.zipWith (· ++ ·) (marks.map ([·]) ++ [[]])).flatten

@[simp] theorem interleave_singleton (piece : List α) : interleave [piece] [] = piece := by
  simp [interleave]

@[simp] theorem interleave_cons_cons (piece : List α) (pieces : List (List α)) (mark : α)
    (marks : List α) :
    interleave (piece :: pieces) (mark :: marks) = piece ++ mark :: interleave pieces marks := by
  simp [interleave]

theorem interleave_splitWhere (p : α → Bool) (xs : List α) :
    interleave (splitWhere p xs) (xs.filter p) = xs := by
  rw [splitWhere_eq_splitOnP]
  exact List.splitOnP_spec xs

/-- Pieces without marks are found again between the marks. -/
theorem splitWhere_interleave {pieces : List (List α)} {marks : List α}
    (hpieces : ∀ piece ∈ pieces, ∀ x ∈ piece, p x = false) (hmarks : ∀ x ∈ marks, p x = true)
    (hlength : pieces.length = marks.length + 1) :
    splitWhere p (interleave pieces marks) = pieces := by
  induction marks generalizing pieces with
  | nil =>
    obtain ⟨piece, rfl⟩ := List.length_eq_one_iff.1 hlength
    rw [interleave_singleton, splitWhere_of_forall (hpieces piece (by simp))]
  | cons mark marks ih =>
    obtain ⟨piece, pieces, rfl⟩ := List.exists_cons_of_length_eq_add_one hlength
    obtain ⟨hpiece, hpieces⟩ := List.forall_mem_cons.1 hpieces
    obtain ⟨hmark, hmarks⟩ := List.forall_mem_cons.1 hmarks
    rw [interleave_cons_cons, splitWhere_append_cons piece hmark, splitWhere_of_forall hpiece,
      ih hpieces hmarks (by simpa using hlength), List.singleton_append]

theorem length_splitWhere (p : α → Bool) (xs : List α) :
    (splitWhere p xs).length = xs.countP p + 1 := by
  induction xs using cut_induction p with
  | free xs hfree => simpa [splitWhere_of_forall hfree] using hfree
  | cut xs x ys hx ihxs ihys =>
    rw [splitWhere_append_cons xs hx, List.length_append, ihxs, ihys, List.countP_append,
      List.countP_cons_of_pos hx]
    omega

/-- Cutting a list gives the only pieces without marks that, with the marks between them, are the
list. -/
theorem eq_splitWhere_iff {xs : List α} {pieces : List (List α)} :
    pieces = splitWhere p xs ↔
      (∀ piece ∈ pieces, ∀ x ∈ piece, p x = false) ∧ pieces.length = xs.countP p + 1 ∧
        interleave pieces (xs.filter p) = xs := by
  constructor
  · rintro rfl
    exact ⟨fun piece => not_of_mem_splitWhere, length_splitWhere p xs, interleave_splitWhere p xs⟩
  · rintro ⟨hpieces, hlength, hwhole⟩
    rw [List.countP_eq_length_filter] at hlength
    have hcut := splitWhere_interleave hpieces (fun x hx => (List.mem_filter.1 hx).2) hlength
    rwa [hwhole, eq_comm] at hcut

end Cuts

namespace Shell

/-! ### Segments -/

/-- A segment of a list of words: a block without control operators that cannot be made longer at
either end. -/
def IsSegment (words segment : List String) : Prop := IsPiece (· ∈ [";", "|", "&&"]) words segment

theorem isOperator_iff {word : String} : isOperator word = true ↔ word ∈ [";", "|", "&&"] :=
  List.contains_iff_mem

theorem mem_segments_iff {words segment : List String} :
    segment ∈ segments words ↔ IsSegment words segment := by
  rw [segments, mem_splitWhere_iff]
  simp only [isOperator_iff]
  rfl

theorem infix_of_mem_segments {words segment : List String} (h : segment ∈ segments words) :
    segment <:+: words := by
  obtain ⟨-, before, after, rfl, -, -⟩ := mem_segments_iff.1 h
  exact ⟨before, after, rfl⟩

theorem infix_iff_exists_mem_segments {needle words : List String}
    (h : ∀ word ∈ needle, word ∉ [";", "|", "&&"]) :
    needle <:+: words ↔ ∃ segment ∈ segments words, needle <:+: segment := by
  refine infix_iff_exists_mem_splitWhere fun word hword => ?_
  rw [← Bool.not_eq_true, isOperator_iff]
  exact h word hword

/-- Segments are the one way to take a command apart without loss. No segment has a control
operator, there is one segment more than there are operators, and the segments with the operators
between them, in their order, are the words again; and no other list of lists has these
properties. -/
theorem eq_segments_iff_lossless (words : List String) (pieces : List (List String)) :
    pieces = segments words ↔
      (∀ piece ∈ pieces, ∀ word ∈ piece, word ∉ [";", "|", "&&"]) ∧
      pieces.length = words.countP (· ∈ [";", "|", "&&"]) + 1 ∧
      interleave pieces (words.filter (· ∈ [";", "|", "&&"])) = words := by
  have hoperator : isOperator = fun word => decide (word ∈ [";", "|", "&&"]) := by
    funext word
    rw [Bool.eq_iff_iff, isOperator_iff, decide_eq_true_iff]
  rw [segments, hoperator, eq_splitWhere_iff]
  simp only [decide_eq_false_iff_not]

example : segments ["&&", "make", ";", "|", "tee", ";"] = [[], ["make"], [], ["tee"], []] := by
  decide

end Shell

end DockerfileLint
