import DockerfileLint.Config.Reader
import DockerfileLint.Config.Writer
import DockerfileLint.Proofs.Toml.Sections
import DockerfileLint.Proofs.Toml.Spelling

/-!
# The layout of a configuration

A configuration is written as its suppressed codes, then a table for each rule with the settings
that are made, then the table of the analyzer (`Config.statements`). Whatever the texts and keys
are, however they are spelled, in whatever order the rules stand and whatever comments are between
the lines, the text is read back as the configuration (`Config.parse?_of_writtenAs`).
-/

namespace DockerfileLint

open Toml

/-! ### The statements of a configuration -/

/-- An array of texts. -/
def Toml.texts (xs : List String) : Value := .array (xs.map .string)

/-- The settings that are made for a rule. -/
def RuleSetting.members (s : RuleSetting) : Table :=
  (s.enabled.map fun b => ("enabled", .boolean b)).toList ++
    (s.severity.map fun v => ("severity", .string v.name)).toList

/-- The settings of the analyzer. -/
def AnalyzerSettings.members (s : AnalyzerSettings) : Table :=
  [("enabled", .boolean s.enabled), ("program", .string s.program), ("shell", .string s.shell),
    ("exclude", texts s.exclude)]

/-- The tables of rules. -/
def ruleTables (entries : List (String × RuleSetting)) : List (String × Table) :=
  entries.map fun e => (e.1, e.2.members)

/-- The tables of a configuration: a table for each rule, perhaps with a header for them in front,
and the analyzer. -/
def Config.sections (c : Config) (withHeader : Bool) (entries : List (String × RuleSetting)) :
    List Section :=
  Draft.tableSections withHeader "rules" (ruleTables entries) ++
    [⟨.table ⟨[], "shellcheck"⟩, flatPairs c.shellcheck.members⟩]

/-- What a configuration says, with its rules in a given order. -/
def Config.statements (c : Config) (withHeader : Bool) (entries : List (String × RuleSetting)) :
    List Statement :=
  statementsOf (flatPairs [("ignored", texts c.ignored)]) (c.sections withHeader entries)

/-! ### Reading the settings back -/

theorem Toml.Value.strings?_texts (xs : List String) : Value.strings? (texts xs) = some xs := by
  show (xs.map Value.string).mapM Value.string? = some xs
  induction xs with
  | nil => rfl
  | cons x xs ih =>
    rw [List.map_cons, List.mapM_cons, ih]
    rfl

theorem RuleSetting.ofToml?_members (s : RuleSetting) :
    RuleSetting.ofToml? (.table s.members) = some s := by
  rcases s with ⟨_ | b, _ | v⟩
  · rfl
  · cases v <;> rfl
  · rfl
  · cases v <;> rfl

theorem AnalyzerSettings.ofToml?_members (s : AnalyzerSettings) :
    AnalyzerSettings.ofToml? (.table s.members) = some s := by
  have hexclude : Toml.field? Value.strings? (some (texts s.exclude)) = some (some s.exclude) :=
    congrArg (Option.map some) (Value.strings?_texts s.exclude)
  show (Toml.field? Value.strings? (some (texts s.exclude))).bind _ = _
  rw [hexclude]
  rfl

theorem RuleSetting.nodup_keysOf_members (s : RuleSetting) : (keysOf s.members).Nodup := by
  rcases s with ⟨_ | b, _ | v⟩ <;> simp [members, keysOf]

theorem AnalyzerSettings.nodup_keysOf_members (s : AnalyzerSettings) :
    (keysOf s.members).Nodup := by
  show ["enabled", "program", "shell", "exclude"].Nodup
  decide

/-- The members that tables of rules make. -/
def ruleMembers (entries : List (String × RuleSetting)) : Table :=
  (ruleTables entries).map fun e => (e.1, .table e.2)

/-- New keys are added at the end. -/
theorem RuleTable.entries_insert {t : RuleTable} {key : String} (h : key ∉ keysOf t.entries)
    (s : RuleSetting) :
    (t.insert key s).entries = t.entries ++ [(key, s)] := by
  have hkeep : t.entries.filter (fun e => e.1 ≠ key) = t.entries := by
    refine List.filter_eq_self.2 fun e he => decide_eq_true ?_
    rintro rfl
    exact h (List.mem_map_of_mem he)
  show t.entries.filter (fun e => e.1 ≠ key) ++ [(key, s)] = _
  rw [hkeep]

/-- The entries of a table are read one by one. -/
theorem RuleTable.foldlM_insert {t : RuleTable} {entries : List (String × RuleSetting)}
    (h : (keysOf t.entries ++ keysOf entries).Nodup) :
    ∃ t', (ruleMembers entries).foldlM (fun t m => (RuleSetting.ofToml? m.2).map (t.insert m.1)) t =
      some t' ∧
      t'.entries = t.entries ++ entries := by
  induction entries generalizing t with
  | nil => exact ⟨t, rfl, (List.append_nil _).symm⟩
  | cons e entries ih =>
    obtain ⟨hnew, hkeys⟩ := nodup_keysOf_cons h e.2
    have hinsert := entries_insert hnew e.2
    rw [← hinsert] at hkeys
    obtain ⟨t', ht', hentries⟩ := ih hkeys
    refine ⟨t', ?_, by rw [hentries, hinsert, List.append_assoc]; rfl⟩
    show ((RuleSetting.ofToml? (.table e.2.members)).map (t.insert e.1) >>= _) = _
    rw [RuleSetting.ofToml?_members]
    exact ht'

theorem RuleTable.ofToml?_ruleMembers {entries : List (String × RuleSetting)}
    (h : (keysOf entries).Nodup) :
    RuleTable.ofToml? (.table (ruleMembers entries)) = some ⟨entries, h⟩ := by
  obtain ⟨⟨entries', hnodup⟩, hread, hentries⟩ := @foldlM_insert .empty entries h
  cases hentries
  exact hread

/-! ### The table of a configuration -/

theorem nodup_keysOf_ruleTables {entries : List (String × RuleSetting)}
    (h : (keysOf entries).Nodup) :
    (keysOf (ruleTables entries)).Nodup := by
  rw [keysOf, ruleTables, List.map_map]
  exact h

theorem nodup_of_mem_ruleTables {entries : List (String × RuleSetting)} {e : String × Table}
    (he : e ∈ ruleTables entries) : (keysOf e.2).Nodup := by
  obtain ⟨e, _, rfl⟩ := List.mem_map.1 he
  exact e.2.nodup_keysOf_members

/-- The sections of a configuration make one table; without any header of rules it says nothing
about them. -/
theorem Config.tableOfSections?_layout (c : Config) (withHeader : Bool)
    {entries : List (String × RuleSetting)} (h : (keysOf entries).Nodup) :
    ∃ rules : Table,
      (entries = [] ∧ rules = [] ∨ rules = [("rules", .table (ruleMembers entries))]) ∧
      tableOfSections? (flatPairs [("ignored", texts c.ignored)]) (c.sections withHeader entries) =
        some (("ignored", texts c.ignored) ::
          (rules ++ [("shellcheck", .table c.shellcheck.members)])) := by
  have hpairs : Draft.addPairs (flatPairs [("ignored", texts c.ignored)]) [] =
      some (Draft.ofTable [("ignored", texts c.ignored)]) := rfl
  have hfinish : ∀ members, "shellcheck" ∉ keysOf members →
      (Draft.tableSections withHeader "rules" (ruleTables entries)).foldlM Draft.addSection
        (Draft.ofTable [("ignored", texts c.ignored)]) = some members →
      tableOfSections? (flatPairs [("ignored", texts c.ignored)]) (c.sections withHeader entries) =
        some (Draft.finishMembers members ++ [("shellcheck", .table c.shellcheck.members)]) := by
    intro members hmembers hrules
    have hsecs := Draft.foldlM_addSection_concat hrules hmembers c.shellcheck.nodup_keysOf_members
    rw [Config.sections, tableOfSections?_eq_some hpairs hsecs, Draft.finishMembers_append]
    show some (_ ++
      [("shellcheck", Value.table (Draft.finishMembers (Draft.ofTable c.shellcheck.members)))]) = _
    rw [Draft.finishMembers_ofTable]
  have hnew : "rules" ∉ keysOf (Draft.ofTable [("ignored", texts c.ignored)]) := by
    simp [keysOf, Draft.ofTable]
  obtain ⟨hnone, hrules⟩ | ⟨origin, hrules⟩ :=
    Draft.foldlM_tableSections withHeader hnew (nodup_keysOf_ruleTables h)
      fun e he => nodup_of_mem_ruleTables he
  · exact ⟨[], .inl ⟨List.map_eq_nil_iff.1 hnone, rfl⟩,
      hfinish _ (by simp [keysOf, Draft.ofTable]) hrules⟩
  · refine ⟨_, .inr rfl, (hfinish _ (by simp [keysOf, Draft.ofTable]) hrules).trans ?_⟩
    rw [ruleMembers, ← Draft.finishMembers_ofTables]
    rfl

/-- The table of a configuration is read as the configuration, with its rules in the order of the
tables. -/
theorem Config.ofTable?_layout (c : Config) {entries : List (String × RuleSetting)}
    (h : (keysOf entries).Nodup) {rules : Table}
    (hrules : entries = [] ∧ rules = [] ∨ rules = [("rules", .table (ruleMembers entries))]) :
    ofTable?
      (("ignored", texts c.ignored) :: (rules ++ [("shellcheck", .table c.shellcheck.members)])) =
      some { c with rules := ⟨entries, h⟩ } := by
  have hignored : field? Value.strings? (some (texts c.ignored)) = some (some c.ignored) :=
    congrArg (Option.map some) (Value.strings?_texts c.ignored)
  have hshellcheck : field? AnalyzerSettings.ofToml? (some (.table c.shellcheck.members)) =
      some (some c.shellcheck) :=
    congrArg (Option.map some) c.shellcheck.ofToml?_members
  rcases hrules with ⟨rfl, rfl⟩ | rfl
  · show (field? Value.strings? (some (texts c.ignored)) >>= fun ignored =>
      field? AnalyzerSettings.ofToml? (some (.table c.shellcheck.members)) >>= _) = _
    rw [hignored, hshellcheck]
    rfl
  · have hrules : field? RuleTable.ofToml? (some (.table (ruleMembers entries))) =
        some (some ⟨entries, h⟩) :=
      congrArg (Option.map some) (RuleTable.ofToml?_ruleMembers h)
    show (field? Value.strings? (some (texts c.ignored)) >>= fun ignored =>
      field? RuleTable.ofToml? (some (.table (ruleMembers entries))) >>= fun rules =>
      field? AnalyzerSettings.ofToml? (some (.table c.shellcheck.members)) >>= _) = _
    rw [hignored, hrules, hshellcheck]
    rfl

/-- A document is read as its pairs and sections, however they are spelled. -/
theorem Toml.ofChars?_of_spelling {pairs : List (Path × Value)} {secs : List Section}
    {text : List Char} (h : Spelling (statementsOf pairs secs) text) :
    ofChars? text = tableOfSections? pairs secs := by
  have hread : ofChars? text =
      tableOfSections? (sections (statementsOf pairs secs)).1
        (sections (statementsOf pairs secs)).2 := by
    rw [ofChars?, dropMark_of_spelling h, statements_of_spelling h]
    rfl
  rw [hread, sections_statementsOf]

/-- A spelling of what a configuration says is read as the configuration. -/
theorem Config.parse?_of_spelling (c : Config) {withHeader : Bool}
    {entries : List (String × RuleSetting)} (h : (keysOf entries).Nodup) {text : List Char}
    (htext : Spelling (c.statements withHeader entries) text) :
    Config.parse? (String.ofList text) = some { c with rules := ⟨entries, h⟩ } := by
  obtain ⟨rules, hrules, htable⟩ := c.tableOfSections?_layout withHeader h
  rw [Config.parse?, Toml.parse?, String.toList_ofList, ofChars?_of_spelling htext, htable]
  exact c.ofTable?_layout h hrules

/-! ### The writer -/

theorem RuleSetting.spelling_render (key : String) (s : RuleSetting) :
    Spelling (Section.statements ⟨.table ⟨["rules"], key⟩, flatPairs s.members⟩)
      (s.render key) := by
  have hpath : PathSpelling ⟨["rules"], key⟩ ("rules".toList ++ '.' :: quote key) :=
    ⟨.cons (keySpelling_word rfl rfl) (.one (.quoted (quoted_quote key))), by simp [pathLimit]⟩
  have henabled : Spelling
      (pairStatements (flatPairs (s.enabled.map fun b => ("enabled", Value.boolean b)).toList))
      (s.enabled.toList.flatMap fun b => setting "enabled" (truth b)) := by
    cases s.enabled with
    | none => exact .nil
    | some b =>
      rw [Option.toList_some, List.flatMap_singleton]
      exact spelling_setting "enabled" (keySpelling_word rfl rfl) (valueSpelling_truth b)
  have hseverity : Spelling
      (pairStatements
        (flatPairs (s.severity.map fun v => ("severity", Value.string v.name)).toList))
      (s.severity.toList.flatMap fun v => setting "severity" (quote v.name)) := by
    cases s.severity with
    | none => exact .nil
    | some v =>
      rw [Option.toList_some, List.flatMap_singleton]
      exact spelling_setting "severity" (keySpelling_word rfl rfl) (.string (quoted_quote v.name))
  have h := (spelling_header hpath).append (henabled.append (hseverity.append spelling_blank))
  rw [List.append_nil, ← pairStatements_flatPairs_append] at h
  simp only [List.cons_append, List.append_assoc] at h
  exact h

theorem AnalyzerSettings.spelling_render (s : AnalyzerSettings) :
    Spelling (Section.statements ⟨.table ⟨[], "shellcheck"⟩, flatPairs s.members⟩) s.render := by
  have hpath : PathSpelling ⟨[], "shellcheck"⟩ "shellcheck".toList :=
    ⟨.one (keySpelling_word rfl rfl), by decide⟩
  have henabled :=
    spelling_setting "enabled" (keySpelling_word rfl rfl) (valueSpelling_truth s.enabled)
  have hprogram :=
    spelling_setting "program" (keySpelling_word rfl rfl) (.string (quoted_quote s.program))
  have hshell :=
    spelling_setting "shell" (keySpelling_word rfl rfl) (.string (quoted_quote s.shell))
  have hexclude :=
    spelling_setting "exclude" (keySpelling_word rfl rfl) (valueSpelling_quoteAll s.exclude)
  exact (spelling_header hpath).append (henabled.append (hprogram.append (hshell.append hexclude)))

theorem RuleTable.spelling_render (t : RuleTable) :
    Spelling ((Draft.tableSections t.entries.isEmpty "rules" (ruleTables t.entries)).flatMap
      Section.statements)
      t.render := by
  have hentries : ∀ entries : List (String × RuleSetting),
      Spelling ((Draft.innerSections "rules" (ruleTables entries)).flatMap Section.statements)
        (entries.flatMap fun e => e.2.render e.1) := by
    intro entries
    induction entries with
    | nil => exact .nil
    | cons e entries ih => exact (e.2.spelling_render e.1).append ih
  unfold render
  cases t.entries with
  | nil =>
    have hpath : PathSpelling ⟨[], "rules"⟩ "rules".toList :=
      ⟨.one (keySpelling_word rfl rfl), by decide⟩
    exact (spelling_header hpath).append spelling_blank
  | cons e entries => exact hentries (e :: entries)

theorem Config.spelling_render (c : Config) :
    Spelling (c.statements c.rules.entries.isEmpty c.rules.entries) c.render := by
  have hignored :=
    spelling_setting "ignored" (keySpelling_word rfl rfl) (valueSpelling_quoteAll c.ignored)
  have hsections := c.rules.spelling_render.append c.shellcheck.spelling_render
  have h := hignored.append (spelling_blank.append hsections)
  rw [Config.statements, statementsOf, Config.sections, List.flatMap_append, List.flatMap_singleton]
  exact h

/-! ### The main statement -/

/-- The ways to write a configuration: its rules may stand in any order, with or without a header in
front of them. -/
def Config.WrittenAs (c : Config) (text : String) : Prop :=
  ∃ withHeader entries, entries.Perm c.rules.entries ∧
    Spelling (c.statements withHeader entries) text.toList

/-- Every way to write a configuration is read back as the configuration, and the writer writes it
in such a way, also below comments. -/
theorem Config.parse?_of_writtenAs (c : Config) :
    (∀ text, c.WrittenAs text →
      ∃ rules, Config.parse? text = some { c with rules } ∧
        ∀ key, rules.get? key = c.rules.get? key) ∧
    ∀ comments : List (List Char), (∀ line ∈ comments, LineSpelling none line) →
      c.WrittenAs (String.ofList (comments.flatMap (· ++ ['\n']) ++ c.render)) ∧
      Config.parse? (String.ofList (comments.flatMap (· ++ ['\n']) ++ c.render)) = some c := by
  constructor
  · rintro text ⟨withHeader, entries, hperm, hspelling⟩
    have hnodup : (keysOf entries).Nodup := (hperm.map Prod.fst).nodup_iff.2 c.rules.nodup
    have hread := c.parse?_of_spelling hnodup hspelling
    rw [String.ofList_toList] at hread
    exact ⟨⟨entries, hnodup⟩, hread, lookup_eq_of_perm hperm hnodup⟩
  · intro comments hcomments
    have hspelling := spelling_comments hcomments c.spelling_render
    refine ⟨⟨_, _, .refl _, by rw [String.toList_ofList]; exact hspelling⟩, ?_⟩
    exact c.parse?_of_spelling c.rules.nodup hspelling

/-- A configuration with an empty rule key and one that holds the marks of a header. -/
def oddKeys : Config where
  ignored := ["\\", "\n"]
  rules := ⟨[("", ⟨some false, none⟩), ("a]\".b\n", ⟨none, some .error⟩)], by decide⟩
  shellcheck := { program := "a\tb", exclude := ["#"] }

/-- The rules of `oddKeys` in the other order. -/
def oddKeysReversed : Config :=
  { oddKeys with rules := ⟨oddKeys.rules.entries.reverse, by decide⟩ }

/-- The text of `oddKeysReversed`. -/
def oddText : String :=
  "ignored = [\"\\\\\", \"\\u000a\"]\n\n" ++
  "[rules.\"a]\\\".b\\u000a\"]\nseverity = \"error\"\n\n" ++
  "[rules.\"\"]\nenabled = false\n\n" ++
  "[shellcheck]\nenabled = true\nprogram = \"a\\u0009b\"\nshell = \"sh\"\nexclude = [\"#\"]\n"

theorem parse?_oddText :
    ∃ rules, Config.parse? oddText = some { oddKeys with rules } ∧
      ∀ key, rules.get? key = oddKeys.rules.get? key := by
  have htext : oddText = String.ofList oddKeysReversed.render := by decide +kernel
  refine (Config.parse?_of_writtenAs oddKeys).1 oddText ⟨false, oddKeys.rules.entries.reverse,
    List.reverse_perm _, ?_⟩
  rw [htext, String.toList_ofList]
  exact oddKeysReversed.spelling_render

end DockerfileLint
