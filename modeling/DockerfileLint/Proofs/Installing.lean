import DockerfileLint.Proofs.Pinning

/-!
# Install commands in the whole and in its segments

An install command can be looked for in all the words of `RUN`, and in each of its segments. The two
answers are the same for tools that are told by words next to each other, since no operator is one
of them (`Installer.installs_iff`). So the rules that look at all the words ask something of exactly
the commands in which the rule on versions looks for packages (`install_tests_agree`). The words of
`apk` need not be adjacent: there the whole only has what a segment has.
-/

namespace DockerfileLint

/-- The rule asks something of certain commands and of nothing else: it finds fault with those among
them that do not meet it. -/
def Rule.AsksOf (r : Rule) (applies met : List String → Prop) : Prop :=
  r.FaultsRun fun args => applies args ∧ ¬met args

/-- The word answers the questions of `apt-get` in advance. -/
def AnswersYes (word : String) : Prop :=
  word ∈ ["-y", "--yes", "-qq"] ∨ "-y".toList <:+: word.toList

theorem Catalog.assumesYes_iff {word : String} : assumesYes word = true ↔ AnswersYes word := by
  rw [assumesYes, Bool.or_eq_true, List.contains_iff_mem, Text.contains_iff, AnswersYes]

theorem Catalog.asksOf_of_onRun {r : Rule} {applies met : List String → Bool}
    (h : r.test = onRun fun args => !applies args || met args) :
    r.AsksOf (fun args => applies args = true) fun args => met args = true :=
  (faultsRun_of_onRun h).congr fun args => by simp

theorem Rule.AsksOf.congr {r : Rule} {applies applies' met met' : List String → Prop}
    (h : r.AsksOf applies met) (happlies : ∀ args, applies args ↔ applies' args)
    (hmet : ∀ args, met args ↔ met' args) :
    r.AsksOf applies' met' :=
  FaultsRun.congr h fun args => by rw [happlies, hmet]

namespace Installer

/-! ### Where packages are looked for -/

/-- The segments in which packages are looked for: those with an install command. -/
def searched (tool : Installer) (words : List String) : List (List String) :=
  (Shell.segments words).filter tool.installs

variable {tool : Installer} {words : List String}

theorem mem_searched {segment : List String} :
    segment ∈ tool.searched words ↔ segment ∈ Shell.segments words ∧ tool.installs segment = true :=
  List.mem_filter

theorem searched_ne_nil_iff :
    tool.searched words ≠ [] ↔ ∃ segment ∈ Shell.segments words, tool.installs segment = true := by
  simp [searched]

/-- A package stands in a segment that is searched. -/
theorem searched_ne_nil_of_packages {found : List String} (h : tool.packages words = some found)
    (hfound : found ≠ []) :
    tool.searched words ≠ [] := by
  intro hnone
  have hempty : tool.packages words = some [] := by
    show (if (tool.searched words).any tool.exempts then none
      else some (((tool.searched words).flatMap _).filter _)) = _
    rw [hnone]
    rfl
  rw [hempty] at h
  cases h
  exact hfound rfl

/-! ### The two tests -/

/-- A tool that is told by blocks without operators installs something in the whole if and only if
it does so in a segment. -/
theorem installs_iff {needles : List (List String)}
    (htool : ∀ words, tool.installs words = true ↔ ∃ needle ∈ needles, needle <:+: words)
    (hneedles : ∀ needle ∈ needles, ∀ word ∈ needle, word ∉ [";", "|", "&&"]) :
    tool.installs words = true ↔
      ∃ segment ∈ Shell.segments words, tool.installs segment = true := by
  simp only [htool]
  constructor
  · rintro ⟨needle, hneedle, hwords⟩
    obtain ⟨segment, hsegment, hoccurs⟩ :=
      (Shell.infix_iff_exists_mem_segments (hneedles needle hneedle)).1 hwords
    exact ⟨segment, hsegment, needle, hneedle, hoccurs⟩
  · rintro ⟨segment, hsegment, needle, hneedle, hoccurs⟩
    exact ⟨needle, hneedle, hoccurs.trans (Shell.infix_of_mem_segments hsegment)⟩

theorem apt_installs_iff :
    apt.installs words = true ↔ ∃ segment ∈ Shell.segments words, apt.installs segment = true := by
  have hblocks : ∀ words, apt.installs words = true ↔
      ∃ needle ∈ [["apt-get", "install"]], needle <:+: words := by
    simp [apt, occursIn_iff_isInfix]
  exact installs_iff hblocks (by decide)

theorem pip_installs_iff :
    pip.installs words = true ↔ ∃ segment ∈ Shell.segments words, pip.installs segment = true := by
  have hblocks : ∀ words, pip.installs words = true ↔
      ∃ needle ∈ [["pip", "install"], ["pip2", "install"], ["pip3", "install"]],
        needle <:+: words := by
    simp [pip, occursIn_iff_isInfix]
  exact installs_iff hblocks (by decide)

theorem npm_installs_iff :
    npm.installs words = true ↔ ∃ segment ∈ Shell.segments words, npm.installs segment = true := by
  have hblocks : ∀ words, npm.installs words = true ↔
      ∃ needle ∈ [["npm", "install"]], needle <:+: words := by
    simp [npm, occursIn_iff_isInfix]
  exact installs_iff hblocks (by decide)

/-- The words of `apk` need not be adjacent, so that the whole may have them where no segment has
both. -/
theorem apk_installs_of_segment
    (h : ∃ segment ∈ Shell.segments words, apk.installs segment = true) :
    apk.installs words = true := by
  obtain ⟨segment, hsegment, hinstalls⟩ := h
  have hsubset := (Shell.infix_of_mem_segments hsegment).subset
  simp only [apk, Bool.and_eq_true, List.contains_iff_mem] at hinstalls ⊢
  exact ⟨hsubset hinstalls.1, hsubset hinstalls.2⟩

example : apk.installs ["apk", "update", "&&", "adduser", "add"] = true ∧
    apk.searched ["apk", "update", "&&", "adduser", "add"] = [] := by decide

end Installer

/-! ### The rules -/

namespace Catalog

theorem aptGetYes_asksOf :
    aptGetYes.AsksOf (Installer.apt.searched · ≠ [])
      fun args => ∃ word ∈ args, AnswersYes word := by
  have hraw : aptGetYes.AsksOf _ _ := asksOf_of_onRun rfl
  refine hraw.congr (fun args => ?_) fun args => ?_
  · rw [Installer.searched_ne_nil_iff, Installer.apt_installs_iff]
  · simp only [List.any_eq_true, assumesYes_iff]

theorem aptGetNoRecommends_asksOf :
    aptGetNoRecommends.AsksOf (Installer.apt.searched · ≠ []) ("--no-install-recommends" ∈ ·) := by
  have hraw : aptGetNoRecommends.AsksOf _ _ := asksOf_of_onRun rfl
  refine hraw.congr (fun args => ?_) fun args => List.contains_iff_mem
  rw [Installer.searched_ne_nil_iff, Installer.apt_installs_iff]

theorem aptGetPinned_asksOf :
    aptGetPinned.AsksOf (Installer.apt.searched · ≠ []) fun args =>
      ∀ segment ∈ Installer.apt.searched args, ∀ word ∈ segment,
        Installer.apt.isOption word = true ∨ Installer.apt.isPinned word = true := by
  refine (faultsRun_of_onRun rfl).congr fun args => ?_
  rw [Installer.allPinned_eq_false_iff_of_not_exempt _ fun _ => rfl]
  simp only [← Shell.mem_segments_iff, Installer.searched_ne_nil_iff, Installer.mem_searched]
  constructor
  · rintro ⟨segment, hsegment, hinstalls, word, hword, hoption, hpinned⟩
    refine ⟨⟨segment, hsegment, hinstalls⟩, fun hall => ?_⟩
    rcases hall segment ⟨hsegment, hinstalls⟩ word (Shell.stays_nil_iff.1 hword) with h | h
    · exact hoption h
    · exact hpinned h
  · rintro ⟨-, hsome⟩
    simp only [not_forall, not_or] at hsome
    obtain ⟨segment, ⟨hsegment, hinstalls⟩, word, hword, hoption, hpinned⟩ := hsome
    exact ⟨segment, hsegment, hinstalls, word, Shell.stays_nil_iff.2 hword, hoption, hpinned⟩

theorem apkAddNoCache_asksOf :
    apkAddNoCache.AsksOf (Installer.apk.installs · = true) ("--no-cache" ∈ ·) := by
  have hraw : apkAddNoCache.AsksOf _ _ := asksOf_of_onRun rfl
  exact hraw.congr (fun _ => Iff.rfl) fun _ => List.contains_iff_mem

end Catalog

/-- Looking at all words and looking at each segment agree on what is installed. A block without
operators occurs in the whole if and only if it occurs in a segment, so that `apt-get`, `pip` and
`npm` install something in the whole if and only if they do in a segment. The rules on the flags of
`apt-get` ask for them in exactly the commands in which the rule on versions looks for packages.
With `apk`, the whole installs something if a segment does, so that the rule on its cache asks for
the flag wherever there is a package. -/
theorem install_tests_agree :
    (∀ words needle, (∀ word ∈ needle, word ∉ [";", "|", "&&"]) →
      (occursIn needle words = true ↔
        ∃ segment ∈ Shell.segments words, occursIn needle segment = true)) ∧
    (∀ tool ∈ [Installer.apt, Installer.pip, Installer.npm], ∀ args,
      tool.installs args = true ↔ ∃ segment ∈ Shell.segments args, tool.installs segment = true) ∧
    Catalog.aptGetYes.AsksOf (Installer.apt.searched · ≠ [])
      (fun args => ∃ word ∈ args, AnswersYes word) ∧
    Catalog.aptGetNoRecommends.AsksOf (Installer.apt.searched · ≠ [])
      ("--no-install-recommends" ∈ ·) ∧
    Catalog.aptGetPinned.AsksOf (Installer.apt.searched · ≠ []) (fun args =>
      ∀ segment ∈ Installer.apt.searched args, ∀ word ∈ segment,
        Installer.apt.isOption word = true ∨ Installer.apt.isPinned word = true) ∧
    (∀ args, (∃ segment ∈ Shell.segments args, Installer.apk.installs segment = true) →
      Installer.apk.installs args = true) ∧
    (∀ args found, Installer.apk.packages args = some found → found ≠ [] →
      Installer.apk.installs args = true) ∧
    Catalog.apkAddNoCache.AsksOf (Installer.apk.installs · = true) ("--no-cache" ∈ ·) := by
  refine ⟨fun words needle hneedle => ?_, ?_, Catalog.aptGetYes_asksOf,
    Catalog.aptGetNoRecommends_asksOf, Catalog.aptGetPinned_asksOf,
    fun args => Installer.apk_installs_of_segment, fun args found hfound hne => ?_,
    Catalog.apkAddNoCache_asksOf⟩
  · simp only [occursIn_iff_isInfix]
    exact Shell.infix_iff_exists_mem_segments hneedle
  · simp only [List.forall_mem_cons, List.not_mem_nil, false_implies, implies_true, and_true]
    exact ⟨fun args => Installer.apt_installs_iff, fun args => Installer.pip_installs_iff,
      fun args => Installer.npm_installs_iff⟩
  · exact Installer.apk_installs_of_segment
      (Installer.searched_ne_nil_iff.1 (Installer.searched_ne_nil_of_packages hfound hne))

/-- The two words of `apt-get` stand in different segments here, those of `pip3` in one. -/
theorem install_tests_agree_straddling :
    let args := ["apt-get", "&&", "install", "curl", ";", ";", "pip3", "install", "flask"]
    (∀ word ∈ ["pip3", "install"], word ∉ [";", "|", "&&"]) ∧
    (∃ segment ∈ Shell.segments args, occursIn ["pip3", "install"] segment = true) ∧
    Installer.apt.installs args = false ∧ Installer.pip.installs args = true := by
  intro args
  have hfree : ∀ word ∈ ["pip3", "install"], word ∉ [";", "|", "&&"] := by decide
  refine ⟨hfree, (install_tests_agree.1 args _ hfree).1 (by decide), ?_, ?_⟩
  · rw [← Bool.not_eq_true, install_tests_agree.2.1 Installer.apt (by simp)]
    decide
  · rw [install_tests_agree.2.1 Installer.pip (by simp)]
    decide

end DockerfileLint
