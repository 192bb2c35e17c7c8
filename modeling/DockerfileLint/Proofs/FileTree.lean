import DockerfileLint.FileTree
import DockerfileLint.Config.Discovery
import DockerfileLint.Proofs.Segments

/-!
# Paths in a file tree

What a write does to a file tree, place by place, and which paths still lead to the same place after
it. A path is walked name by name through directories (`FileTree.walk_append`), so that a write at a
place that is no directory does not change where a walk ends (`FileTree.walk_insert`). A name in a
directory is reached through any path to the directory (`FileTree.locate_joinPath`).
-/

namespace DockerfileLint

namespace FileTree

variable {t : FileTree} {base place : Location} {path : String}

/-! ### Entries -/

theorem get?_insert_self (t : FileTree) (entry : Entry) (h : place ≠ []) :
    (t.insert place entry).get? place = some entry := by
  rw [get?_insert t place place entry h, if_pos rfl]

/-- Nothing changes at another place. -/
theorem get?_insert_of_ne (t : FileTree) (entry : Entry) {other : Location} (h : other ≠ place) :
    (t.insert place entry).get? other = t.get? other := by
  by_cases hroot : other = []
  · rw [hroot, get?_root, get?_root]
  · rw [get?_insert t place other entry hroot, if_neg h]

/-! ### Walks -/

theorem walk_cons_of_directory (h : t.get? place = some .directory) (name : String)
    (rest : List String) :
    t.walk place (name :: rest) =
      if name = "" ∨ name = "." then t.walk place rest
      else if name = ".." then t.walk place.dropLast rest
      else if nameLimit < name.utf8ByteSize then .error .nameTooLong
      else t.walk (place ++ [name]) rest := by
  rw [walk, h]

/-- A walk that goes on is in a directory. -/
theorem directory_of_walk_cons {name : String} {rest : List String} {last : Location}
    (h : t.walk place (name :: rest) = .ok last) : t.get? place = some .directory := by
  rw [walk] at h
  split at h
  · cases h
  · cases h
  · assumption

theorem walk_append (xs ys : List String) :
    t.walk place (xs ++ ys) = t.walk place xs >>= fun last => t.walk last ys := by
  induction xs generalizing place with
  | nil => rfl
  | cons name xs ih =>
    rw [List.cons_append, walk, walk]
    rcases t.get? place with _ | (_ | _)
    · rfl
    · rfl
    · dsimp only
      split_ifs
      · exact ih
      · exact ih
      · rfl
      · exact ih

/-- A new entry in the place of a file, or of nothing, does not change where a walk ends. -/
theorem walk_insert (hplace : t.get? place ≠ some .directory) (entry : Entry)
    {first last : Location} {xs : List String} (h : t.walk first xs = .ok last) :
    (t.insert place entry).walk first xs = .ok last := by
  induction xs generalizing first with
  | nil => exact h
  | cons name xs ih =>
    have hdir := directory_of_walk_cons h
    -- every place on the way is a directory, so it is another place
    have hne : first ≠ place := by
      rintro rfl
      exact hplace hdir
    have hdir' := hdir
    rw [← get?_insert_of_ne t entry hne] at hdir'
    rw [walk_cons_of_directory hdir] at h
    rw [walk_cons_of_directory hdir']
    split_ifs at h ⊢
    · exact ih h
    · exact ih h
    · exact ih h

/-! ### Paths -/

theorem locate_eq_ok_iff :
    t.locate base path = .ok place ↔
      Text.hasNul path = false ∧ path.utf8ByteSize ≤ pathLimit ∧ path ≠ "" ∧
        t.walk (start base path) (names path) = .ok place := by
  unfold locate
  split_ifs with hnul hlimit hempty
  · simp [hnul]
  · simp [Nat.not_le_of_lt hlimit]
  · simp [hempty]
  · simp [hnul, hempty, Nat.le_of_not_lt hlimit]

theorem names_append (dir rest : String) :
    names (dir ++ "/" ++ rest) = names dir ++ names rest := by
  have hslash : (dir ++ "/" ++ rest).toList = dir.toList ++ '/' :: rest.toList := by simp
  rw [names, Text.splitOn, hslash, splitWhere_append_cons dir.toList (by simp) rest.toList,
    List.map_append]
  rfl

theorem start_append {dir : String} (h : dir ≠ "") (rest : String) :
    start base (dir ++ rest) = start base dir := by
  have hstarts : Text.startsWith (dir ++ rest) "/" = Text.startsWith dir "/" := by
    unfold Text.startsWith
    rw [String.toList_append]
    cases hdir : dir.toList with
    | nil => exact absurd (String.toList_eq_nil_iff.1 hdir) h
    | cons c cs => simp [List.isPrefixOf]
  rw [start, start, hstarts]

/-- A name that leads from a directory to an entry of it. -/
structure IsEntryName (name : String) : Prop where
  ne_empty : name ≠ ""
  ne_here : name ≠ "."
  ne_up : name ≠ ".."
  no_slash : '/' ∉ name.toList
  no_nul : Text.hasNul name = false
  length_le : name.utf8ByteSize ≤ nameLimit

variable {name dir : String}

theorem IsEntryName.names_eq (h : IsEntryName name) : names name = [name] := by
  have hcut : splitWhere (· == '/') name.toList = [name.toList] := by
    refine splitWhere_of_forall fun c hc => beq_eq_false_iff_ne.2 ?_
    rintro rfl
    exact h.no_slash hc
  rw [names, Text.splitOn, hcut, List.map_singleton, String.ofList_toList]

theorem IsEntryName.start_eq (h : IsEntryName name) (base : Location) : start base name = base := by
  refine if_neg fun hstarts => h.no_slash ?_
  obtain ⟨rest, hrest⟩ := List.isPrefixOf_iff_prefix.1 hstarts
  rw [← hrest]
  simp

theorem IsEntryName.walk_eq (h : IsEntryName name) (hplace : t.get? place = some .directory) :
    t.walk place [name] = .ok (place ++ [name]) := by
  rw [walk_cons_of_directory hplace, if_neg (not_or.2 ⟨h.ne_empty, h.ne_here⟩), if_neg h.ne_up,
    if_neg (Nat.not_lt.2 h.length_le)]
  rfl

/-- The path leads to a directory. The empty path leads to the directory in which it starts. -/
structure LeadsTo (t : FileTree) (base : Location) (dir : String) (place : Location) : Prop where
  no_nul : Text.hasNul dir = false
  walk : t.walk (start base dir) (names dir) = .ok place
  directory : t.get? place = some .directory

theorem leadsTo_empty (h : t.get? base = some .directory) : t.LeadsTo base "" base :=
  ⟨rfl, walk_cons_of_directory h "" [], h⟩

theorem leadsTo_of_locate (h : t.locate base dir = .ok place)
    (hplace : t.get? place = some .directory) :
    t.LeadsTo base dir place := by
  obtain ⟨hnul, -, -, hwalk⟩ := locate_eq_ok_iff.1 h
  exact ⟨hnul, hwalk, hplace⟩

/-- A last name that stays in its directory may be left out. -/
theorem walk_of_walk_concat_empty {xs : List String} (h : t.walk base (xs ++ [""]) = .ok place) :
    t.walk base xs = .ok place := by
  rw [walk_append] at h
  cases hxs : t.walk base xs with
  | error e =>
    rw [hxs] at h
    cases h
  | ok last =>
    rw [hxs] at h
    have hlast : t.walk last [""] = .ok place := h
    rw [walk_cons_of_directory (directory_of_walk_cons hlast)] at hlast
    exact hlast

theorem LeadsTo.walk_joinPath (h : t.LeadsTo base dir place) (hname : IsEntryName name) :
    t.walk (start base (joinPath dir name)) (names (joinPath dir name)) =
      .ok (place ++ [name]) := by
  have hwalk := h.walk
  unfold joinPath
  split_ifs with hcase
  · by_cases hempty : dir = ""
    · subst hempty
      rw [String.empty_append, hname.start_eq, hname.names_eq]
      have hstay : t.walk base [""] = .ok place := hwalk
      rw [walk_cons_of_directory (directory_of_walk_cons hstay)] at hstay
      rw [Except.ok.inj hstay]
      exact hname.walk_eq h.directory
    · -- the slash at the end of the directory separates the name
      obtain ⟨parent, hparent⟩ := List.isSuffixOf_iff_suffix.1 (hcase.resolve_left hempty)
      have hdir : dir = String.ofList parent ++ "/" := by
        rw [← String.toList_inj, ← hparent]
        simp
      have hnames : names dir = names (String.ofList parent) ++ [""] := by
        have hlast := names_append (String.ofList parent) ""
        rw [String.append_empty, ← hdir] at hlast
        exact hlast
      rw [hnames] at hwalk
      rw [start_append hempty, hdir, names_append, hname.names_eq, ← hdir, walk_append,
        walk_of_walk_concat_empty hwalk]
      exact hname.walk_eq h.directory
  · rw [not_or] at hcase
    rw [String.append_assoc, start_append hcase.1, ← String.append_assoc, names_append,
      hname.names_eq, walk_append, hwalk]
    exact hname.walk_eq h.directory

theorem hasNul_append (s rest : String) :
    Text.hasNul (s ++ rest) = (Text.hasNul s || Text.hasNul rest) := by
  simp [Text.hasNul, Text.hasChar]

/-- An entry of a directory is found through any path to the directory that leaves room for the
name. -/
theorem LeadsTo.locate_joinPath (h : t.LeadsTo base dir place) (hname : IsEntryName name)
    (hlimit : (joinPath dir name).utf8ByteSize ≤ pathLimit) :
    t.locate base (joinPath dir name) = .ok (place ++ [name]) := by
  have hslash : Text.hasNul "/" = false := rfl
  refine locate_eq_ok_iff.2 ⟨?_, hlimit, ?_, h.walk_joinPath hname⟩
  · unfold joinPath
    split_ifs <;> simp [hasNul_append, h.no_nul, hname.no_nul, hslash]
  · unfold joinPath
    split_ifs <;> simp [hname.ne_empty]

theorem LeadsTo.insert (h : t.LeadsTo base dir place) {other : Location}
    (hother : t.get? other ≠ some .directory) (entry : Entry) :
    (t.insert other entry).LeadsTo base dir place where
  no_nul := h.no_nul
  walk := walk_insert hother entry h.walk
  directory := by
    rw [get?_insert_of_ne t entry, h.directory]
    rintro rfl
    exact hother h.directory

end FileTree

end DockerfileLint
