import DockerfileLint.Shell
import Mathlib.Algebra.Group.Nat.Even
import Mathlib.Data.List.DropRight

/-!
# Flags with a value

`Shell.dropFlagged` reads the words from left to right and takes away two at a time. All that it
carries from the words it has read to the words ahead is whether the next one is a value, and that
is told by how many flags stand at the end of the words read (`Shell.dropFlagged_append`). So
whether a word stays can be told from its place alone: it is no flag, and the number of flags right
before it is even (`Shell.dropFlagged_eq_filter`).
-/

namespace DockerfileLint.Shell

variable {flags : List String}

/-! ### Flags at the end -/

/-- The number of flags that stand at the end of the words, with nothing between them. -/
def flagsAtEnd (flags words : List String) : Nat := (words.rtakeWhile (· ∈ flags)).length

theorem flagsAtEnd_singleton {flag : String} (h : flag ∈ flags) : flagsAtEnd flags [flag] = 1 := by
  simp [flagsAtEnd, List.rtakeWhile, h]

theorem flagsAtEnd_cons_of_not_mem {word : String} (h : word ∉ flags) (words : List String) :
    flagsAtEnd flags (word :: words) = flagsAtEnd flags words := by
  unfold flagsAtEnd List.rtakeWhile
  rw [List.reverse_cons, List.takeWhile_append]
  split
  · rename_i hall
    simp [h, hall]
  · rfl

/-- A flag and its value do not change whether the number of flags at the end is even. -/
theorem flagsAtEnd_cons_cons_mod_two {flag : String} (h : flag ∈ flags) (value : String)
    (words : List String) :
    flagsAtEnd flags (flag :: value :: words) % 2 = flagsAtEnd flags words % 2 := by
  unfold flagsAtEnd List.rtakeWhile
  rw [List.reverse_cons, List.reverse_cons, List.append_assoc, List.takeWhile_append]
  split
  · rename_i hall
    -- the words are all flags, so that the value and then the flag may count as well
    by_cases hvalue : value ∈ flags
    · simp [h, hvalue, hall, Nat.add_assoc]
    · simp [hvalue, hall]
  · rfl

/-! ### Dropping flags and their values -/

theorem dropFlagged_cons_of_mem {flag : String} (h : flag ∈ flags) (words : List String) :
    dropFlagged flags (flag :: words) = dropFlagged flags (words.drop 1) := by
  cases words <;> simp [dropFlagged, h]

theorem dropFlagged_cons_of_not_mem {word : String} (h : word ∉ flags) (words : List String) :
    dropFlagged flags (word :: words) = word :: dropFlagged flags words := by
  cases words <;> simp [dropFlagged, h]

/-- The words ahead are read from the first one, or from the second if the words already read leave
a flag without its value. -/
theorem dropFlagged_append (words ahead : List String) :
    dropFlagged flags (words ++ ahead) =
      dropFlagged flags words ++ dropFlagged flags (ahead.drop (flagsAtEnd flags words % 2)) := by
  fun_induction dropFlagged flags words with
  | case1 => rfl
  | case2 flag h =>
    rw [List.contains_iff_mem] at h
    rw [List.singleton_append, dropFlagged_cons_of_mem h, flagsAtEnd_singleton h, List.nil_append]
  | case3 word h =>
    rw [List.contains_iff_mem] at h
    rw [List.singleton_append, dropFlagged_cons_of_not_mem h, flagsAtEnd_cons_of_not_mem h]
    rfl
  | case4 flag value words h ih =>
    rw [List.contains_iff_mem] at h
    rw [List.cons_append, dropFlagged_cons_of_mem h, flagsAtEnd_cons_cons_mod_two h, ← ih]
    rfl
  | case5 word next words h ih =>
    rw [List.contains_iff_mem] at h
    rw [List.cons_append, dropFlagged_cons_of_not_mem h, flagsAtEnd_cons_of_not_mem h, ih,
      List.cons_append]

theorem dropFlagged_append_of_even {words : List String} (h : Even (flagsAtEnd flags words))
    (ahead : List String) :
    dropFlagged flags (words ++ ahead) = dropFlagged flags words ++ dropFlagged flags ahead := by
  rw [dropFlagged_append, Nat.even_iff.1 h, List.drop_zero]

/-- The last word stays if it is no flag and no value of a flag. -/
theorem dropFlagged_concat (words : List String) (word : String) :
    dropFlagged flags (words ++ [word]) =
      dropFlagged flags words ++
        if word ∉ flags ∧ Even (flagsAtEnd flags words) then [word] else [] := by
  by_cases heven : Even (flagsAtEnd flags words)
  · rw [dropFlagged_append_of_even heven, dropFlagged]
    simp [heven]
  · rw [dropFlagged_append, Nat.not_even_iff.1 heven]
    simp [heven, dropFlagged]

/-- What is left are the words at the places where no flag stands and the number of flags right
before is even. -/
theorem dropFlagged_eq_filter (words : List String) :
    dropFlagged flags words = (words.zipIdx.filter fun (word, place) =>
      word ∉ flags ∧ Even (flagsAtEnd flags (words.take place))).map Prod.fst := by
  induction words using List.reverseRecOn with
  | nil => rfl
  | append_singleton words word ih =>
    -- the words before a place are the same in the longer list
    have hbefore : ∀ {first place}, (first, place) ∈ words.zipIdx →
        (words ++ [word]).take place = words.take place := by
      intro first place hplace
      have hlt : place < words.length := by simpa using List.snd_lt_of_mem_zipIdx hplace
      exact List.take_append_of_le_length hlt.le
    rw [dropFlagged_concat, ih, List.zipIdx_append, List.filter_append, List.map_append]
    congr 1
    · refine congrArg _ (List.filter_congr ?_)
      rintro ⟨first, place⟩ hplace
      simp only [hbefore hplace]
    · by_cases hword : word ∉ flags ∧ Even (flagsAtEnd flags words)
      · simp [hword]
      · simp [hword]

/-! ### Single words -/

/-- A word stays in a list without its flags and their values: it is no flag, and at some place the
number of flags right before it is even. -/
def Stays (flags words : List String) (word : String) : Prop :=
  word ∉ flags ∧ ∃ before after, words = before ++ word :: after ∧ Even (flagsAtEnd flags before)

/-- Without flags every word stays. -/
theorem stays_nil_iff {words : List String} {word : String} :
    Stays [] words word ↔ word ∈ words := by
  have hzero : ∀ before, flagsAtEnd [] before = 0 := by
    intro before
    induction before with
    | nil => rfl
    | cons first before ih => rw [flagsAtEnd_cons_of_not_mem (by simp), ih]
  simp [Stays, hzero, List.mem_iff_append]

theorem mem_dropFlagged_iff {words : List String} {word : String} :
    word ∈ dropFlagged flags words ↔ Stays flags words word := by
  have hplace : word ∈ dropFlagged flags words ↔
      ∃ place, words[place]? = some word ∧ word ∉ flags ∧
        Even (flagsAtEnd flags (words.take place)) := by
    simp [dropFlagged_eq_filter, List.mk_mem_zipIdx_iff_getElem?]
  rw [hplace]
  constructor
  · rintro ⟨place, hword, hflag, heven⟩
    obtain ⟨hlt, rfl⟩ := List.getElem?_eq_some_iff.1 hword
    refine ⟨hflag, words.take place, words.drop (place + 1), ?_, heven⟩
    rw [← List.drop_eq_getElem_cons hlt, List.take_append_drop]
  · rintro ⟨hflag, before, after, rfl, heven⟩
    exact ⟨before.length, by simp, hflag, by simpa using heven⟩

/-- What is left without the flags and their values are the words that are no flag and have an even
number of flags right before them, in their order. So no flag is left. A flag at the very end goes
alone, and a flag that is the value of another one goes with it and takes nothing along: what stands
behind the two is read as if it came first. -/
theorem dropFlagged_even_distance (flags words : List String) :
    dropFlagged flags words = (words.zipIdx.filter fun (word, place) =>
      word ∉ flags ∧ Even (flagsAtEnd flags (words.take place))).map Prod.fst ∧
    (∀ flag ∈ flags, flag ∉ dropFlagged flags words) ∧
    (dropFlagged flags words).Sublist words ∧
    (∀ flag ∈ flags, dropFlagged flags (words ++ [flag]) = dropFlagged flags words) ∧
    (∀ flag ∈ flags, Even (flagsAtEnd flags words) → ∀ value rest,
      dropFlagged flags (words ++ flag :: value :: rest) =
        dropFlagged flags words ++ dropFlagged flags rest) := by
  refine ⟨dropFlagged_eq_filter words, fun flag hflag hmem => ?_, ?_, fun flag hflag => ?_,
    fun flag hflag heven value rest => ?_⟩
  · exact (mem_dropFlagged_iff.1 hmem).1 hflag
  · rw [dropFlagged_eq_filter]
    refine (List.filter_sublist.map Prod.fst).trans ?_
    rw [List.zipIdx_map_fst]
  · rw [dropFlagged_concat, if_neg fun hstays => hstays.1 hflag, List.append_nil]
  · rw [dropFlagged_append_of_even heven, dropFlagged_cons_of_mem hflag, List.drop_one,
      List.tail_cons]

/-- Of three flags in a row the second is the value of the first, and the third has nothing behind
it. -/
theorem dropFlagged_even_distance_row :
    let flags := ["-t", "--virtual"]
    "-t" ∈ flags ∧ Even (flagsAtEnd flags ["apk", "add"]) ∧
      dropFlagged flags ["apk", "add", "-t", "--virtual", "-t"] = ["apk", "add"] ∧
      dropFlagged flags ["apk", "add", "-t", "--virtual", "git"] = ["apk", "add", "git"] := by
  intro flags
  have hflag : "-t" ∈ flags := by decide
  have heven : Even (flagsAtEnd flags ["apk", "add"]) := by decide
  obtain ⟨-, -, -, -, hvalue⟩ := dropFlagged_even_distance flags ["apk", "add"]
  exact ⟨hflag, heven, hvalue "-t" hflag heven "--virtual" ["-t"],
    hvalue "-t" hflag heven "--virtual" ["git"]⟩

end DockerfileLint.Shell
