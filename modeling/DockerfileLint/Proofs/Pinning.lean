import DockerfileLint.Proofs.Commands
import DockerfileLint.Proofs.Flags
import DockerfileLint.Proofs.Segments

/-!
# Packages without a version

The rules on `apt-get`, `apk`, `pip` and `npm` fail where a segment of a command installs a package
that names no version. The properties `AptFault`, `ApkFault`, `PipFault` and `NpmFault` say so in
terms of segments, words and characters, and `faultsRun_pinning` ties them to the rules. All four
rules read a command in the same way, which `Installer.allPinned_eq_false_iff` puts into words once
for any installer.
-/

namespace DockerfileLint

/-! ### Tests on a word -/

namespace Text

theorem startsWith_iff {s start : String} : startsWith s start = true ↔ start.toList <+: s.toList :=
  List.isPrefixOf_iff_prefix

theorem contains_iff {s part : String} : contains s part = true ↔ part.toList <:+: s.toList :=
  occursIn_iff_isInfix

theorem hasChar_iff {s : String} {c : Char} : hasChar s c = true ↔ c ∈ s.toList :=
  List.contains_iff_mem

/-- What stands after the first mark is what follows a start without the mark. -/
theorem mem_after_iff {s : String} {mark c : Char} :
    c ∈ (after s mark).toList ↔
      ∃ start rest, s.toList = start ++ mark :: rest ∧ mark ∉ start ∧ c ∈ rest := by
  rw [after, String.toList_ofList]
  constructor
  · intro hc
    cases hdrop : s.toList.dropWhile (· != mark) with
    | nil => simp [hdrop] at hc
    | cons d rest =>
      obtain rfl : d = mark := by simpa [hdrop] using List.head?_dropWhile_not (· != mark) s.toList
      rw [hdrop] at hc
      refine ⟨s.toList.takeWhile (· != d), rest, ?_, ?_, hc⟩
      · rw [← hdrop, List.takeWhile_append_dropWhile]
      · intro hmark
        simpa using List.mem_takeWhile_imp hmark
  · rintro ⟨start, rest, hs, hstart, hc⟩
    have hpass : ∀ d ∈ start, (d != mark) = true := by
      intro d hd
      simpa using fun h : d = mark => hstart (h ▸ hd)
    rw [hs, List.dropWhile_append_of_pos hpass, List.dropWhile_cons_of_neg (by simp)]
    exact hc

end Text

/-! ### Faults -/

/-- In a segment with `apt-get` right before `install`, a word that is no option has no version. -/
def AptFault (args : List String) : Prop :=
  ∃ segment, Shell.IsSegment args segment ∧ ["apt-get", "install"] <:+: segment ∧
    ∃ word ∈ segment, word ∉ ["apt-get", "install", "-d", "-f", "-m", "-q", "-y", "-qq"] ∧
      ¬"--".toList <+: word.toList ∧ '=' ∉ word.toList

/-- In a segment with `apk` and `add`, a word that is no option and not the name of a virtual
package has no version. A word is such a name if the number of flags `-t` and `--virtual` right
before it is odd. -/
def ApkFault (args : List String) : Prop :=
  ∃ segment, Shell.IsSegment args segment ∧ "apk" ∈ segment ∧ "add" ∈ segment ∧
    ∃ before word after, segment = before ++ word :: after ∧
      word ∉ ["apk", "add", "-q", "-p", "-v", "-f", "-t"] ∧ ¬"--".toList <+: word.toList ∧
      '=' ∉ word.toList ∧
      Even (Shell.flagsAtEnd ["-t", "--virtual"] before)

/-- The segment has one of the programs `pip`, `pip2` and `pip3` right before `install`. -/
def PipInstalls (segment : List String) : Prop :=
  ∃ program ∈ ["pip", "pip2", "pip3"], [program, "install"] <:+: segment

/-- No segment that installs with `pip` takes a file of requirements, and in one of them a word that
is no option has neither a comparison with a version nor a commit. -/
def PipFault (args : List String) : Prop :=
  (∀ segment, Shell.IsSegment args segment → PipInstalls segment → "-r" ∉ segment) ∧
  ∃ segment, Shell.IsSegment args segment ∧ PipInstalls segment ∧
    ∃ word ∈ segment,
      word ∉ ["pip", "pip2", "pip3", "install", "--user", "--disable-pip-version-check",
        "--no-cache-dir"] ∧
      (∀ symbol ∈ ["==", ">=", "<=", ">", "<", "!="], ¬symbol.toList <:+: word.toList) ∧
      ¬("git+http".toList <:+: word.toList ∧ '@' ∈ word.toList)

/-- The name of a package without its scope. A scope starts with `@` and ends before the first
slash; a name that is all scope leaves nothing. -/
inductive Unscoped : List Char → List Char → Prop
  | plain {name : List Char} (h : name.head? ≠ some '@') : Unscoped name name
  | scoped {scope name : List Char} (h : '/' ∉ scope) : Unscoped ('@' :: scope ++ '/' :: name) name

/-- The package is given by the address of a Git repository. -/
def IsGitAddress (word : String) : Prop :=
  ∃ start ∈ ["git://", "git+ssh://", "git+http://", "git+https://"], start.toList <+: word.toList

/-- In a segment with `npm` right before `install`, a word that is no option has no version: a Git
address has no commit, behind `#`, and any other name has no `@` after its scope. -/
def NpmFault (args : List String) : Prop :=
  ∃ segment, Shell.IsSegment args segment ∧ ["npm", "install"] <:+: segment ∧
    ∃ word ∈ segment, word ∉ ["npm", "install", "--global"] ∧
      (IsGitAddress word → '#' ∉ word.toList) ∧
      (¬IsGitAddress word → ∀ name, Unscoped word.toList name → '@' ∉ name)

theorem unscoped_iff_of_plain {word name : List Char} (h : word.head? ≠ some '@') :
    Unscoped word name ↔ name = word := by
  constructor
  · rintro (_ | _)
    · rfl
    · exact absurd rfl h
  · rintro rfl
    exact .plain h

theorem unscoped_iff_of_scope {word name : List Char} (h : word.head? = some '@') :
    Unscoped word name ↔ ∃ start, word = start ++ '/' :: name ∧ '/' ∉ start := by
  constructor
  · rintro (hplain | hscope)
    · exact absurd h hplain
    · exact ⟨_, rfl, by simpa using hscope⟩
  · rintro ⟨start, rfl, hstart⟩
    cases start with
    | nil => simp at h
    | cons d scope =>
      obtain rfl : d = '@' := by simpa using h
      exact .scoped fun hmem => hstart (List.mem_cons_of_mem _ hmem)

/-! ### Installers -/

namespace Installer

/-- Not all packages are pinned: no segment that installs is exempt, and in one of them a word that
stays without flags and their values, and is no option, is not pinned. -/
theorem allPinned_eq_false_iff (tool : Installer) (args : List String) :
    tool.allPinned args = false ↔
      (∀ segment, Shell.IsSegment args segment → tool.installs segment = true →
        ¬tool.exempts segment = true) ∧
      ∃ segment, Shell.IsSegment args segment ∧ tool.installs segment = true ∧
        ∃ word, Shell.Stays tool.valueFlags segment word ∧ ¬tool.isOption word = true ∧
          ¬tool.isPinned word = true := by
  simp only [← Shell.mem_segments_iff, ← Shell.mem_dropFlagged_iff]
  unfold allPinned packages
  by_cases hexempt : ((Shell.segments args).filter tool.installs).any tool.exempts = true
  · obtain ⟨segment, hsegment, hexempts⟩ := List.any_eq_true.1 hexempt
    obtain ⟨hmem, hinstalls⟩ := List.mem_filter.1 hsegment
    simp only [hexempt, if_true, Bool.true_eq_false, false_iff]
    rintro ⟨hnone, -⟩
    exact hnone segment hmem hinstalls hexempts
  · have hnone : ∀ segment ∈ Shell.segments args, tool.installs segment = true →
        ¬tool.exempts segment = true := by
      simpa using hexempt
    simp only [hexempt, if_false, Bool.false_eq_true]
    rw [and_iff_right hnone, List.all_eq_false]
    constructor
    · rintro ⟨word, hword, hpinned⟩
      obtain ⟨hfound, hoption⟩ := List.mem_filter.1 hword
      obtain ⟨segment, hsegment, hstays⟩ := List.mem_flatMap.1 hfound
      obtain ⟨hmem, hinstalls⟩ := List.mem_filter.1 hsegment
      exact ⟨segment, hmem, hinstalls, word, hstays, by simpa using hoption, hpinned⟩
    · rintro ⟨segment, hmem, hinstalls, word, hstays, hoption, hpinned⟩
      have hfound := List.mem_flatMap.2 ⟨segment, List.mem_filter.2 ⟨hmem, hinstalls⟩, hstays⟩
      exact ⟨word, List.mem_filter.2 ⟨hfound, by simp [hoption]⟩, hpinned⟩

theorem allPinned_eq_false_iff_of_not_exempt (tool : Installer)
    (h : ∀ segment, tool.exempts segment = false) (args : List String) :
    tool.allPinned args = false ↔
      ∃ segment, Shell.IsSegment args segment ∧ tool.installs segment = true ∧
        ∃ word, Shell.Stays tool.valueFlags segment word ∧ ¬tool.isOption word = true ∧
          ¬tool.isPinned word = true := by
  rw [allPinned_eq_false_iff, and_iff_right fun segment _ _ => by simp [h]]

theorem hasChar_dropScope_iff {word : String} {c : Char} :
    Text.hasChar (dropScope word) c = true ↔ ∃ name, Unscoped word.toList name ∧ c ∈ name := by
  have hat : Text.startsWith word "@" = true ↔ word.toList.head? = some '@' := by
    rw [Text.startsWith_iff]
    cases word.toList <;> simp [eq_comm]
  rw [Text.hasChar_iff, dropScope]
  split_ifs with hscope
  · rw [hat] at hscope
    simp only [unscoped_iff_of_scope hscope, Text.mem_after_iff]
    constructor
    · rintro ⟨start, name, hword, hstart, hc⟩
      exact ⟨name, ⟨start, hword, hstart⟩, hc⟩
    · rintro ⟨name, ⟨start, hword, hstart⟩, hc⟩
      exact ⟨start, name, hword, hstart, hc⟩
  · rw [hat] at hscope
    simp [unscoped_iff_of_plain hscope]

theorem apt_allPinned_eq_false_iff (args : List String) :
    apt.allPinned args = false ↔ AptFault args := by
  rw [apt.allPinned_eq_false_iff_of_not_exempt fun _ => rfl]
  simp only [AptFault, apt, occursIn_iff_isInfix, Shell.stays_nil_iff, Bool.or_eq_true,
    List.contains_iff_mem, Text.startsWith_iff, Text.hasChar_iff, not_or, and_assoc]

theorem apk_allPinned_eq_false_iff (args : List String) :
    apk.allPinned args = false ↔ ApkFault args := by
  rw [apk.allPinned_eq_false_iff_of_not_exempt fun _ => rfl]
  simp only [ApkFault, apk, Bool.and_eq_true, Bool.or_eq_true, List.contains_iff_mem,
    Text.startsWith_iff, Text.hasChar_iff, not_or, and_assoc]
  refine exists_congr fun segment => and_congr_right fun _ => and_congr_right
    fun _ => and_congr_right fun _ => ?_
  constructor
  · rintro ⟨word, ⟨-, before, after, rfl, heven⟩, hword, hdashes, hversion⟩
    exact ⟨before, word, after, rfl, hword, hdashes, hversion, heven⟩
  · rintro ⟨before, word, after, rfl, hword, hdashes, hversion, heven⟩
    refine ⟨word, ⟨?_, before, after, rfl, heven⟩, hword, hdashes, hversion⟩
    -- one of the flags is an option by name, the other by its dashes
    intro hflag
    rcases List.mem_cons.1 hflag with rfl | hflag
    · exact hword (by decide)
    · rw [List.mem_singleton.1 hflag] at hdashes
      exact hdashes (by decide)

theorem pip_allPinned_eq_false_iff (args : List String) :
    pip.allPinned args = false ↔ PipFault args := by
  rw [allPinned_eq_false_iff]
  simp only [PipFault, PipInstalls, pip, occursIn_iff_isInfix, Shell.stays_nil_iff, Bool.or_eq_true,
    Bool.and_eq_true, List.any_eq_true, List.contains_iff_mem, Text.contains_iff, Text.hasChar_iff,
    not_or, not_exists, not_and]

theorem npm_allPinned_eq_false_iff (args : List String) :
    npm.allPinned args = false ↔ NpmFault args := by
  have hgit : ∀ word,
      ["git://", "git+ssh://", "git+http://", "git+https://"].any (Text.startsWith word) = true ↔
      IsGitAddress word := by
    intro word
    simp only [IsGitAddress, List.any_eq_true, Text.startsWith_iff]
  have hpinned : ∀ word, ¬npm.isPinned word = true ↔ (IsGitAddress word → '#' ∉ word.toList) ∧
      (¬IsGitAddress word → ∀ name, Unscoped word.toList name → '@' ∉ name) := by
    intro word
    by_cases haddress : IsGitAddress word
    · have hmark : npm.isPinned word = Text.hasChar word '#' := if_pos ((hgit word).2 haddress)
      simp [hmark, haddress, Text.hasChar_iff]
    · have hmark : npm.isPinned word = Text.hasChar (dropScope word) '@' :=
        if_neg (mt (hgit word).1 haddress)
      simp [hmark, haddress, hasChar_dropScope_iff]
  rw [npm.allPinned_eq_false_iff_of_not_exempt fun _ => rfl]
  simp only [hpinned, NpmFault]
  simp only [npm, occursIn_iff_isInfix, Shell.stays_nil_iff, List.contains_iff_mem]

end Installer

/-- When the four rules on packages fail: they find fault exactly with the commands, also under
`ONBUILD`, in which a package that is installed names no version. -/
theorem faultsRun_pinning :
    Catalog.aptGetPinned.FaultsRun AptFault ∧ Catalog.apkAddPinned.FaultsRun ApkFault ∧
    Catalog.pipPinned.FaultsRun PipFault ∧ Catalog.npmPinned.FaultsRun NpmFault := by
  refine ⟨?apt, ?apk, ?pip, ?npm⟩
  case apt => exact (Catalog.faultsRun_of_onRun rfl).congr Installer.apt_allPinned_eq_false_iff
  case apk => exact (Catalog.faultsRun_of_onRun rfl).congr Installer.apk_allPinned_eq_false_iff
  case pip => exact (Catalog.faultsRun_of_onRun rfl).congr Installer.pip_allPinned_eq_false_iff
  case npm => exact (Catalog.faultsRun_of_onRun rfl).congr Installer.npm_allPinned_eq_false_iff

end DockerfileLint
