import DockerfileLint.Proofs.Config.Fields
import DockerfileLint.Proofs.Config.Layout
import Mathlib.Logic.Relation

/-!
# What a table says as a configuration

A configuration is read field by field. `Config.DenotedBy` says what each field is, from the values
given for it alone: the suppressed codes, the setting of each rule and the section on the analyzer,
with the settings in them. The reader gives exactly that (`Config.map_fields_eq_some_iff`), so it
fails exactly where some value is of the wrong type (`Config.exists_ofTable?_iff`), edits that no
field sees do not change the outcome (`Config.map_fields_of_edits`), and leaving out a key resets
its field and no other (`Config.leavesOut`).
-/

namespace DockerfileLint

open Toml

/-! ### Values of fields -/

/-- The value is this truth value. -/
def Toml.IsBoolean (v : Value) (b : Bool) : Prop := v = .boolean b

/-- The value is this text. -/
def Toml.IsText (v : Value) (s : String) : Prop := v = .string s

/-- The value is the array of these texts. -/
def Toml.IsTexts (v : Value) (xs : List String) : Prop := v = texts xs

theorem Toml.Value.boolean?_eq_some_iff (v : Value) (b : Bool) :
    v.boolean? = some b ↔ IsBoolean v b := by
  cases v <;> simp [Value.boolean?, IsBoolean]

theorem Toml.Value.string?_eq_some_iff (v : Value) (s : String) :
    v.string? = some s ↔ IsText v s := by
  cases v <;> simp [Value.string?, IsText]

theorem Toml.eq_map_of_mapM_string? {items : List Value} {xs : List String}
    (h : items.mapM Value.string? = some xs) : items = xs.map .string := by
  induction items generalizing xs with
  | nil =>
    cases h
    rfl
  | cons item items ih =>
    rw [List.mapM_cons] at h
    obtain ⟨x, hx, h⟩ := Option.bind_eq_some_iff.1 h
    obtain ⟨rest, hrest, h⟩ := Option.bind_eq_some_iff.1 h
    cases h
    rw [(Value.string?_eq_some_iff item x).1 hx, ih hrest, List.map_cons]

theorem Toml.Value.strings?_eq_some_iff (v : Value) (xs : List String) :
    v.strings? = some xs ↔ IsTexts v xs := by
  refine ⟨fun h => ?_, fun h => h ▸ Value.strings?_texts xs⟩
  unfold Value.strings? at h
  split at h
  · rw [eq_map_of_mapM_string? h, IsTexts, texts]
  · cases h

/-- A severity by its name, alone or as the key of an empty table or array. -/
inductive Severity.DenotedBy : Value → Severity → Prop
  | name (s : Severity) : DenotedBy (.string s.name) s
  | table (s : Severity) : DenotedBy (.table [(s.name, .table [])]) s
  | array (s : Severity) : DenotedBy (.table [(s.name, .array [])]) s

/-- A value that is the name of a severity, or a table from such a name to an empty table. -/
def Severity.NamedBy (v : Value) : Prop :=
  ∃ s : Severity, v = .string s.name ∨ v = .table [(s.name, .table [])]

theorem Severity.ofToml?_eq_some_iff (v : Value) (s : Severity) :
    Severity.ofToml? v = some s ↔ DenotedBy v s := by
  constructor
  · intro h
    unfold Severity.ofToml? at h
    split at h
    · rw [Severity.eq_name_of_ofName? h]
      exact .name s
    · rw [Severity.eq_name_of_ofName? h]
      exact .table s
    · rw [Severity.eq_name_of_ofName? h]
      exact .array s
    · cases h
  · rintro (_ | _ | _) <;> exact s.ofName?_name

/-! ### Settings of rules -/

namespace RuleSetting

/-- The fields of a setting, in the order of an array. -/
abbrev fieldNames : List String := ["enabled", "severity"]

/-- What a value says as the setting of a rule; a date says nothing. -/
structure DenotedBy (v : Value) (s : RuleSetting) : Prop where
  record : v.IsRecord ∨ v.IsMoment
  enabled : Field (Gives fieldNames "enabled" v) (Optionally IsBoolean) none s.enabled
  severity : Field (Gives fieldNames "severity" v) (Optionally Severity.DenotedBy) none s.severity

/-- A setting whose given fields are of the right type. -/
structure WellTyped (severity : Value → Prop) (v : Value) : Prop where
  record : v.IsRecord
  enabled : ∀ w, Gives fieldNames "enabled" v w → ∃ b, IsBoolean w b
  severity : ∀ w, Gives fieldNames "severity" v w → severity w

/-- The setting with the default in the field of a key. -/
def reset (key : String) (s : RuleSetting) : RuleSetting where
  enabled := if key = "enabled" then none else s.enabled
  severity := if key = "severity" then none else s.severity

/-- An edit of a setting that is written as a table. -/
def Edit : Value → Value → Prop := EditTable (· ∈ fieldNames) Untouched

variable {v v' : Value} {s : RuleSetting}

theorem ofToml?_eq_some_iff (hv : v.Distinct) : ofToml? v = some s ↔ DenotedBy v s := by
  by_cases hrecord : v.IsRecord ∨ v.IsMoment
  · obtain ⟨slots, hslots⟩ := exists_slots? hrecord fieldNames
    rcases gives_of_slots? (by decide) hv hslots with _ | ⟨henabled, _ | ⟨hseverity, _ | _⟩⟩
    have hb : _ ↔ Field _ _ _ s.enabled :=
      field?_eq_some_iff henabled fun w _ => w.boolean?_eq_some_iff
    have hs : _ ↔ Field _ _ _ s.severity :=
      field?_eq_some_iff hseverity fun w _ => Severity.ofToml?_eq_some_iff w
    rw [ofToml?, hslots]
    simp only [Option.bind_eq_bind, Option.bind_eq_some_iff, Option.pure_def, Option.some.injEq]
    constructor
    · rintro ⟨enabled, h₁, severity, h₂, rfl⟩
      exact ⟨hrecord, hb.1 h₁, hs.1 h₂⟩
    · rintro ⟨-, h₁, h₂⟩
      exact ⟨_, hb.2 h₁, _, hs.2 h₂, rfl⟩
  · refine iff_of_false (fun h => ?_) (fun h => hrecord h.record)
    rw [ofToml?, slots?_eq_none hrecord] at h
    cases h

theorem exists_denotedBy_iff (hv : v.Distinct) (hmoment : ¬v.IsMoment) :
    (∃ s, DenotedBy v s) ↔ WellTyped (fun w => ∃ s, Severity.DenotedBy w s) v := by
  have hunique : ∀ name w w', Gives fieldNames name v w → Gives fieldNames name v w' → w = w' :=
    fun name w w' => Gives.unique (by decide) hv
  constructor
  · rintro ⟨s, hrecord, henabled, hseverity⟩
    refine ⟨hrecord.resolve_right hmoment, fun w hw => ?_, fun w hw => ?_⟩
    · exact exists_optionally_iff.1 ⟨_, henabled.of_given (hunique _) hw⟩
    · exact exists_optionally_iff.1 ⟨_, hseverity.of_given (hunique _) hw⟩
  · rintro ⟨hrecord, henabled, hseverity⟩
    obtain ⟨enabled, henabled⟩ := (exists_field_iff (hunique "enabled")).2
      fun w hw => exists_optionally_iff.2 (henabled w hw)
    obtain ⟨severity, hseverity⟩ := (exists_field_iff (hunique "severity")).2
      fun w hw => exists_optionally_iff.2 (hseverity w hw)
    exact ⟨⟨enabled, severity⟩, .inl hrecord, henabled, hseverity⟩

theorem denotedBy_edit (h : Edit v v') : DenotedBy v s ↔ DenotedBy v' s := by
  obtain ⟨h⟩ := h
  constructor
  · rintro ⟨-, h₁, h₂⟩
    exact ⟨.inl (.table _), (Field.edit_gives (by decide) h).1 h₁,
      (Field.edit_gives (by decide) h).1 h₂⟩
  · rintro ⟨-, h₁, h₂⟩
    exact ⟨.inl (.table _), (Field.edit_gives (by decide) h).2 h₁,
      (Field.edit_gives (by decide) h).2 h₂⟩

theorem DenotedBy.without {t : Table} (h : DenotedBy (.table t) s) (key : String) :
    DenotedBy (.table (without key t)) (s.reset key) :=
  ⟨.inl (.table _), h.enabled.without_gives key, h.severity.without_gives key⟩

end RuleSetting

/-! ### Tables of rules -/

namespace RuleTable

/-- What a value says as the settings of rules, each under its key. -/
def DenotedBy (v : Value) (settings : String → Option RuleSetting) : Prop :=
  ∃ members, v = .table members ∧
    ∀ key, Field (fun w => (key, w) ∈ members) (Optionally RuleSetting.DenotedBy) none
      (settings key)

/-- A table in which each value is the setting of a rule. -/
def WellTyped (severity : Value → Prop) (v : Value) : Prop :=
  ∃ members, v = .table members ∧ ∀ m ∈ members, RuleSetting.WellTyped severity m.2

/-- An edit of a table of rules, in which every key is known. -/
def Edit : Value → Value → Prop := EditTable (fun _ => True) fun _ => RuleSetting.Edit

theorem get?_insert (t : RuleTable) (key other : String) (s : RuleSetting) :
    (t.insert key s).get? other = if other = key then some s else t.get? other := by
  ext a
  rw [get?, lookup_eq_some_iff_mem (t.insert key s).nodup]
  split_ifs with hother
  · simp [insert, hother, eq_comm]
  · rw [get?, lookup_eq_some_iff_mem t.nodup]
    simp [insert, hother]

/-- Adds the setting that a member says. -/
def addMember (t : RuleTable) (member : String × Value) : Option RuleTable :=
  (RuleSetting.ofToml? member.2).map (t.insert member.1)

variable {members : Table} {t t' : RuleTable}

theorem exists_foldlM_iff :
    (∃ t', members.foldlM addMember t = some t') ↔
      ∀ m ∈ members, ∃ s, RuleSetting.ofToml? m.2 = some s := by
  induction members generalizing t with
  | nil => exact ⟨fun _ => by simp, fun _ => ⟨t, rfl⟩⟩
  | cons m members ih =>
    rw [List.forall_mem_cons, List.foldlM_cons]
    constructor
    · rintro ⟨t', h⟩
      obtain ⟨next, hnext, h⟩ := Option.bind_eq_some_iff.1 h
      obtain ⟨s, hs, -⟩ := Option.map_eq_some_iff.1 hnext
      exact ⟨⟨s, hs⟩, ih.1 ⟨t', h⟩⟩
    · rintro ⟨⟨s, hs⟩, h⟩
      obtain ⟨t', h⟩ := ih.2 h
      exact ⟨t', Option.bind_eq_some_iff.2
        ⟨t.insert m.1 s, by rw [addMember, hs, Option.map_some], h⟩⟩

/-- A key has the setting of its member, and what it had where there is none. -/
theorem get?_of_foldlM (hkeys : (keysOf members).Nodup) (h : members.foldlM addMember t = some t')
    (key : String) :
    t'.get? key = ((members.lookup key).bind RuleSetting.ofToml?).or (t.get? key) := by
  induction members generalizing t with
  | nil =>
    cases h
    rfl
  | cons m members ih =>
    obtain ⟨hnew, hkeys⟩ := List.nodup_cons.1 hkeys
    obtain ⟨next, hnext, h⟩ := Option.bind_eq_some_iff.1 h
    obtain ⟨s, hs, rfl⟩ := Option.map_eq_some_iff.1 hnext
    rw [ih hkeys h, get?_insert]
    by_cases hkey : key = m.1
    · subst hkey
      rw [lookup_eq_none_of_not_mem hnew, List.lookup_cons_self, if_pos rfl, Option.bind_some, hs]
      rfl
    · have hlookup : (m :: members).lookup key = members.lookup key := by
        rw [List.lookup_cons, beq_false_of_ne hkey]
      rw [hlookup, if_neg hkey]

theorem field?_of_ofToml? (hkeys : (keysOf members).Nodup) (h : ofToml? (.table members) = some t)
    (key : String) :
    field? RuleSetting.ofToml? (members.lookup key) = some (t.get? key) := by
  rw [get?_of_foldlM hkeys h key]
  cases hlookup : members.lookup key with
  | none => rfl
  | some v =>
    obtain ⟨s, hs⟩ := exists_foldlM_iff.1 ⟨t, h⟩ _ (mem_of_lookup hlookup)
    have hs : RuleSetting.ofToml? v = some s := hs
    rw [field?, Option.bind_some, hs]
    rfl

variable {v v' : Value} {settings : String → Option RuleSetting}

theorem map_get?_ofToml?_eq_some_iff (hv : v.Distinct) :
    (ofToml? v).map get? = some settings ↔ DenotedBy v settings := by
  by_cases htable : ∃ members, v = .table members
  · obtain ⟨members, rfl⟩ := htable
    have hfield := fun key o => @field?_eq_some_iff _ (fun w => (key, w) ∈ members) _ _ _
      (fun w => lookup_eq_some_iff_mem hv.nodup)
      (fun w hw s => RuleSetting.ofToml?_eq_some_iff (hv.of_mem hw)) o
    constructor
    · intro h
      obtain ⟨t, ht, rfl⟩ := Option.map_eq_some_iff.1 h
      exact ⟨members, rfl, fun key => (hfield key _).1 (field?_of_ofToml? hv.nodup ht key)⟩
    · rintro ⟨_, heq, hsettings⟩
      cases heq
      have hmembers : ∀ m ∈ members, ∃ s, RuleSetting.ofToml? m.2 = some s := by
        intro m hm
        obtain ⟨s, -, hs⟩ := (hsettings m.1).of_mem hv hm
        exact ⟨s, (RuleSetting.ofToml?_eq_some_iff (hv.of_mem hm)).2 hs⟩
      obtain ⟨t, ht⟩ := exists_foldlM_iff.2 hmembers
      refine Option.map_eq_some_iff.2 ⟨t, ht, funext fun key => ?_⟩
      have hread :=
        (field?_of_ofToml? hv.nodup ht key).symm.trans ((hfield key _).2 (hsettings key))
      exact Option.some.inj hread
  · refine iff_of_false (fun h => ?_) (fun ⟨members, h, _⟩ => htable ⟨members, h⟩)
    obtain ⟨t, ht, -⟩ := Option.map_eq_some_iff.1 h
    unfold ofToml? at ht
    split at ht
    · exact htable ⟨_, rfl⟩
    · cases ht

theorem exists_denotedBy_iff (hv : v.Distinct)
    (hmoments : ∀ members, v = .table members → ∀ m ∈ members, ¬m.2.IsMoment) :
    (∃ settings, DenotedBy v settings) ↔ WellTyped (fun w => ∃ s, Severity.DenotedBy w s) v := by
  constructor
  · rintro ⟨settings, members, rfl, hsettings⟩
    refine ⟨members, rfl, fun m hm => ?_⟩
    rw [← RuleSetting.exists_denotedBy_iff (hv.of_mem hm) (hmoments members rfl m hm)]
    exact exists_optionally_iff.1 ⟨_, (hsettings m.1).of_mem hv hm⟩
  · rintro ⟨members, rfl, hmembers⟩
    have hfield : ∀ key, ∃ o, Field (fun w => (key, w) ∈ members) (Optionally RuleSetting.DenotedBy)
        none o := by
      intro key
      refine (exists_field_iff fun _ _ => hv.unique).2 fun w hw => exists_optionally_iff.2 ?_
      exact (RuleSetting.exists_denotedBy_iff (hv.of_mem hw) (hmoments members rfl _ hw)).2
        (hmembers _ hw)
    obtain ⟨settings, hsettings⟩ := Classical.skolem.1 hfield
    exact ⟨settings, members, rfl, hsettings⟩

theorem denotedBy_edit (h : Edit v v') : DenotedBy v settings ↔ DenotedBy v' settings := by
  cases h with | @table t t' h => ?_
  have hwithin : ∀ w w', RuleSetting.Edit w w' → ∀ o,
      Optionally RuleSetting.DenotedBy w o ↔ Optionally RuleSetting.DenotedBy w' o :=
    fun w w' hw o => exists_congr fun s => and_congr_right fun _ => RuleSetting.denotedBy_edit hw
  have hfield : ∀ key, Field (fun w => (key, w) ∈ t) _ none (settings key) ↔
      Field (fun w => (key, w) ∈ t') _ none (settings key) :=
    fun key => Field.edit trivial hwithin h
  constructor
  · rintro ⟨_, heq, hsettings⟩
    cases heq
    exact ⟨t', rfl, fun key => (hfield key).1 (hsettings key)⟩
  · rintro ⟨_, heq, hsettings⟩
    cases heq
    exact ⟨t, rfl, fun key => (hfield key).2 (hsettings key)⟩

theorem DenotedBy.without (h : DenotedBy (.table members) settings) (key : String) :
    DenotedBy (.table (without key members)) (Function.update settings key none) := by
  obtain ⟨_, heq, hsettings⟩ := h
  cases heq
  refine ⟨_, rfl, fun other => ?_⟩
  simpa only [Function.update_apply, eq_comm] using (hsettings other).without key

theorem DenotedBy.set (h : DenotedBy (.table members) settings) (key : String) {s : RuleSetting}
    (hs : RuleSetting.DenotedBy v s) :
    DenotedBy (.table (set key v members)) (Function.update settings key (some s)) := by
  obtain ⟨_, heq, hsettings⟩ := h
  cases heq
  refine ⟨_, rfl, fun other => ?_⟩
  by_cases hother : other = key
  · subst hother
    rw [Function.update_self]
    exact Field.set_self ⟨s, rfl, hs⟩ members
  · rw [Function.update_of_ne hother]
    exact (hsettings other).set_of_ne hother v

end RuleTable

/-! ### The section on the analyzer -/

namespace AnalyzerSettings

/-- The fields of the section, in the order of an array. -/
abbrev fieldNames : List String := ["enabled", "program", "shell", "exclude"]

/-- What a value says as the section on the analyzer; a date says nothing. -/
structure DenotedBy (v : Value) (s : AnalyzerSettings) : Prop where
  record : v.IsRecord ∨ v.IsMoment
  enabled : Field (Gives fieldNames "enabled" v) IsBoolean true s.enabled
  program : Field (Gives fieldNames "program" v) IsText "shellcheck" s.program
  shell : Field (Gives fieldNames "shell" v) IsText "sh" s.shell
  exclude : Field (Gives fieldNames "exclude" v) IsTexts [] s.exclude

/-- A section whose given fields are of the right type. -/
structure WellTyped (v : Value) : Prop where
  record : v.IsRecord
  enabled : ∀ w, Gives fieldNames "enabled" v w → ∃ b, IsBoolean w b
  program : ∀ w, Gives fieldNames "program" v w → ∃ x, IsText w x
  shell : ∀ w, Gives fieldNames "shell" v w → ∃ x, IsText w x
  exclude : ∀ w, Gives fieldNames "exclude" v w → ∃ xs, IsTexts w xs

/-- The section with the default in the field of a key. -/
def reset (key : String) (s : AnalyzerSettings) : AnalyzerSettings where
  enabled := if key = "enabled" then true else s.enabled
  program := if key = "program" then "shellcheck" else s.program
  shell := if key = "shell" then "sh" else s.shell
  exclude := if key = "exclude" then [] else s.exclude

/-- An edit of a section that is written as a table. -/
def Edit : Value → Value → Prop := EditTable (· ∈ fieldNames) Untouched

variable {v v' : Value} {s : AnalyzerSettings}

theorem ofToml?_eq_some_iff (hv : v.Distinct) : ofToml? v = some s ↔ DenotedBy v s := by
  by_cases hrecord : v.IsRecord ∨ v.IsMoment
  · obtain ⟨slots, hslots⟩ := exists_slots? hrecord fieldNames
    rcases gives_of_slots? (by decide) hv hslots with
      _ | ⟨henabled, _ | ⟨hprogram, _ | ⟨hshell, _ | ⟨hexclude, _ | _⟩⟩⟩⟩
    have h₁ : _ ↔ Field _ _ true s.enabled :=
      exists_field?_iff henabled fun w _ => w.boolean?_eq_some_iff
    have h₂ : _ ↔ Field _ _ "shellcheck" s.program :=
      exists_field?_iff hprogram fun w _ => w.string?_eq_some_iff
    have h₃ : _ ↔ Field _ _ "sh" s.shell :=
      exists_field?_iff hshell fun w _ => w.string?_eq_some_iff
    have h₄ : _ ↔ Field _ _ [] s.exclude :=
      exists_field?_iff hexclude fun w _ => w.strings?_eq_some_iff
    rw [ofToml?, hslots]
    simp only [Option.bind_eq_bind, Option.bind_eq_some_iff, Option.pure_def, Option.some.injEq]
    constructor
    · rintro ⟨enabled, he, program, hp, shell, hs, exclude, hx, rfl⟩
      exact ⟨hrecord, h₁.1 ⟨_, he, rfl⟩, h₂.1 ⟨_, hp, rfl⟩, h₃.1 ⟨_, hs, rfl⟩, h₄.1 ⟨_, hx, rfl⟩⟩
    · rintro ⟨-, he, hp, hs, hx⟩
      obtain ⟨enabled, he, he'⟩ := h₁.2 he
      obtain ⟨program, hp, hp'⟩ := h₂.2 hp
      obtain ⟨shell, hs, hs'⟩ := h₃.2 hs
      obtain ⟨exclude, hx, hx'⟩ := h₄.2 hx
      exact ⟨enabled, he, program, hp, shell, hs, exclude, hx, by rw [he', hp', hs', hx']⟩
  · refine iff_of_false (fun h => ?_) (fun h => hrecord h.record)
    rw [ofToml?, slots?_eq_none hrecord] at h
    cases h

theorem exists_denotedBy_iff (hv : v.Distinct) (hmoment : ¬v.IsMoment) :
    (∃ s, DenotedBy v s) ↔ WellTyped v := by
  have hunique : ∀ name w w', Gives fieldNames name v w → Gives fieldNames name v w' → w = w' :=
    fun name w w' => Gives.unique (by decide) hv
  constructor
  · rintro ⟨s, hrecord, henabled, hprogram, hshell, hexclude⟩
    exact ⟨hrecord.resolve_right hmoment, fun w hw => ⟨_, henabled.of_given (hunique _) hw⟩,
      fun w hw => ⟨_, hprogram.of_given (hunique _) hw⟩,
      fun w hw => ⟨_, hshell.of_given (hunique _) hw⟩,
      fun w hw => ⟨_, hexclude.of_given (hunique _) hw⟩⟩
  · rintro ⟨hrecord, henabled, hprogram, hshell, hexclude⟩
    obtain ⟨enabled, henabled⟩ := (exists_field_iff (hunique "enabled")).2 henabled
    obtain ⟨program, hprogram⟩ := (exists_field_iff (hunique "program")).2 hprogram
    obtain ⟨shell, hshell⟩ := (exists_field_iff (hunique "shell")).2 hshell
    obtain ⟨exclude, hexclude⟩ := (exists_field_iff (hunique "exclude")).2 hexclude
    exact ⟨⟨enabled, program, shell, exclude⟩, .inl hrecord, henabled, hprogram, hshell, hexclude⟩

theorem denotedBy_edit (h : Edit v v') : DenotedBy v s ↔ DenotedBy v' s := by
  obtain ⟨h⟩ := h
  constructor
  · rintro ⟨-, h₁, h₂, h₃, h₄⟩
    exact ⟨.inl (.table _), (Field.edit_gives (by decide) h).1 h₁,
      (Field.edit_gives (by decide) h).1 h₂, (Field.edit_gives (by decide) h).1 h₃,
      (Field.edit_gives (by decide) h).1 h₄⟩
  · rintro ⟨-, h₁, h₂, h₃, h₄⟩
    exact ⟨.inl (.table _), (Field.edit_gives (by decide) h).2 h₁,
      (Field.edit_gives (by decide) h).2 h₂, (Field.edit_gives (by decide) h).2 h₃,
      (Field.edit_gives (by decide) h).2 h₄⟩

theorem DenotedBy.without {t : Table} (h : DenotedBy (.table t) s) (key : String) :
    DenotedBy (.table (without key t)) (s.reset key) :=
  ⟨.inl (.table _), h.enabled.without_gives key, h.program.without_gives key,
    h.shell.without_gives key, h.exclude.without_gives key⟩

end AnalyzerSettings

/-! ### The configuration -/

namespace Config

/-- What a configuration says, with the settings of rules by their keys. -/
structure Fields where
  ignored : List String
  rules : String → Option RuleSetting
  shellcheck : AnalyzerSettings

/-- What a configuration says. -/
def fields (c : Config) : Fields := ⟨c.ignored, c.rules.get?, c.shellcheck⟩

/-- The keys of a document that are known. -/
abbrev fieldNames : List String := ["ignored", "rules", "shellcheck"]

/-- What a document says as a configuration. -/
structure DenotedBy (T : Table) (f : Fields) : Prop where
  ignored : Field (fun v => ("ignored", v) ∈ T) IsTexts [] f.ignored
  rules : Field (fun v => ("rules", v) ∈ T) RuleTable.DenotedBy (fun _ => none) f.rules
  shellcheck : Field (fun v => ("shellcheck", v) ∈ T) AnalyzerSettings.DenotedBy {} f.shellcheck

/-- A document in which each known key that is present has a value of the right type. -/
structure WellTyped (severity : Value → Prop) (T : Table) : Prop where
  ignored : ∀ v, ("ignored", v) ∈ T → ∃ xs, IsTexts v xs
  rules : ∀ v, ("rules", v) ∈ T → RuleTable.WellTyped severity v
  shellcheck : ∀ v, ("shellcheck", v) ∈ T → AnalyzerSettings.WellTyped v

/-- No date stands in the place of a rule's setting or of the section on the analyzer. -/
structure NoMoments (T : Table) : Prop where
  rules : ∀ members, ("rules", .table members) ∈ T → ∀ m ∈ members, ¬m.2.IsMoment
  shellcheck : ∀ v, ("shellcheck", v) ∈ T → ¬v.IsMoment

/-- One edit of a document, at any level, that says nothing new about a known key. -/
def Edit : Table → Table → Prop :=
  Toml.Edit (· ∈ fieldNames) fun key v v' =>
    key = "rules" ∧ RuleTable.Edit v v' ∨ key = "shellcheck" ∧ AnalyzerSettings.Edit v v'

/-- What is said with the default in the field of a key. -/
def Fields.reset (key : String) (f : Fields) : Fields where
  ignored := if key = "ignored" then [] else f.ignored
  rules := if key = "rules" then fun _ => none else f.rules
  shellcheck := if key = "shellcheck" then {} else f.shellcheck

variable {T T' : Table} {c c' : Config} {f : Fields}

theorem ofTable?_eq_some_iff : ofTable? T = some c ↔
    (∃ o, field? Value.strings? (T.lookup "ignored") = some o ∧ o.getD [] = c.ignored) ∧
    (∃ o, field? RuleTable.ofToml? (T.lookup "rules") = some o ∧ o.getD .empty = c.rules) ∧
    ∃ o, field? AnalyzerSettings.ofToml? (T.lookup "shellcheck") = some o ∧
      o.getD {} = c.shellcheck := by
  simp only [ofTable?, Option.bind_eq_bind, Option.bind_eq_some_iff, Option.pure_def,
    Option.some.injEq]
  constructor
  · rintro ⟨ignored, hi, rules, hr, shellcheck, hs, rfl⟩
    exact ⟨⟨_, hi, rfl⟩, ⟨_, hr, rfl⟩, ⟨_, hs, rfl⟩⟩
  · rintro ⟨⟨ignored, hi, hi'⟩, ⟨rules, hr, hr'⟩, ⟨shellcheck, hs, hs'⟩⟩
    exact ⟨ignored, hi, rules, hr, shellcheck, hs, by rw [hi', hr', hs']⟩

/-- A field depends on the value under its own key only. -/
theorem eq_of_lookup_eq (h : ofTable? T = some c) (h' : ofTable? T' = some c') :
    (T.lookup "ignored" = T'.lookup "ignored" → c.ignored = c'.ignored) ∧
    (T.lookup "rules" = T'.lookup "rules" → c.rules = c'.rules) ∧
    (T.lookup "shellcheck" = T'.lookup "shellcheck" → c.shellcheck = c'.shellcheck) := by
  obtain ⟨⟨i, hi, hci⟩, ⟨r, hr, hcr⟩, ⟨s, hs, hcs⟩⟩ := ofTable?_eq_some_iff.1 h
  obtain ⟨⟨i', hi', hci'⟩, ⟨r', hr', hcr'⟩, ⟨s', hs', hcs'⟩⟩ := ofTable?_eq_some_iff.1 h'
  refine ⟨fun heq => ?_, fun heq => ?_, fun heq => ?_⟩
  · rw [heq, hi'] at hi
    rw [← hci, ← hci', Option.some.inj hi]
  · rw [heq, hr'] at hr
    rw [← hcr, ← hcr', Option.some.inj hr]
  · rw [heq, hs'] at hs
    rw [← hcs, ← hcs', Option.some.inj hs]

theorem map_fields_eq_some_iff (hT : (Value.table T).Distinct) :
    (ofTable? T).map fields = some f ↔ DenotedBy T f := by
  have hslot : ∀ key v, T.lookup key = some v ↔ (key, v) ∈ T :=
    fun key v => lookup_eq_some_iff_mem hT.nodup
  have h₁ : _ ↔ Field _ _ [] f.ignored :=
    exists_field?_iff (hslot "ignored") fun v _ => v.strings?_eq_some_iff
  have h₂ : _ ↔ Field _ _ (RuleTable.get? .empty) f.rules :=
    exists_field?_view_iff RuleTable.get? (hslot "rules")
      fun v hv _ => RuleTable.map_get?_ofToml?_eq_some_iff (hT.of_mem hv)
  have h₃ : _ ↔ Field _ _ {} f.shellcheck := exists_field?_iff (hslot "shellcheck")
    fun v hv _ => AnalyzerSettings.ofToml?_eq_some_iff (hT.of_mem hv)
  constructor
  · intro h
    obtain ⟨c, hc, rfl⟩ := Option.map_eq_some_iff.1 h
    obtain ⟨hi, ⟨rules, hr, hr'⟩, hs⟩ := ofTable?_eq_some_iff.1 hc
    exact ⟨h₁.1 hi, h₂.1 ⟨rules, hr, congrArg RuleTable.get? hr'⟩, h₃.1 hs⟩
  · rintro ⟨hi, hr, hs⟩
    obtain ⟨rules, hr, hr'⟩ := h₂.2 hr
    refine Option.map_eq_some_iff.2 ⟨⟨f.ignored, rules.getD .empty, f.shellcheck⟩, ?_, ?_⟩
    · exact ofTable?_eq_some_iff.2 ⟨h₁.2 hi, ⟨rules, hr, rfl⟩, h₃.2 hs⟩
    · rw [fields, hr']

theorem exists_ofTable?_iff (hT : (Value.table T).Distinct) (hmoments : NoMoments T) :
    (∃ c, ofTable? T = some c) ↔ WellTyped (fun v => ∃ s, Severity.DenotedBy v s) T := by
  have hfields : (∃ c, ofTable? T = some c) ↔ ∃ f, DenotedBy T f := by
    simp only [← map_fields_eq_some_iff hT, Option.map_eq_some_iff]
    exact ⟨fun ⟨c, hc⟩ => ⟨_, c, hc, rfl⟩, fun ⟨_, c, hc, _⟩ => ⟨c, hc⟩⟩
  have hrules : ∀ v, ("rules", v) ∈ T →
      ((∃ settings, RuleTable.DenotedBy v settings) ↔ RuleTable.WellTyped _ v) := fun v hv =>
    RuleTable.exists_denotedBy_iff (hT.of_mem hv) fun members heq =>
      hmoments.rules members (heq ▸ hv)
  have hsection : ∀ v, ("shellcheck", v) ∈ T →
      ((∃ s, AnalyzerSettings.DenotedBy v s) ↔ AnalyzerSettings.WellTyped v) :=
    fun v hv => AnalyzerSettings.exists_denotedBy_iff (hT.of_mem hv) (hmoments.shellcheck v hv)
  rw [hfields]
  constructor
  · rintro ⟨f, hi, hr, hs⟩
    exact ⟨fun v hv => ⟨_, hi.of_mem hT hv⟩,
      fun v hv => (hrules v hv).1 ⟨_, hr.of_mem hT hv⟩,
      fun v hv => (hsection v hv).1 ⟨_, hs.of_mem hT hv⟩⟩
  · rintro ⟨hi, hr, hs⟩
    obtain ⟨ignored, hi⟩ := (exists_field_iff fun _ _ => hT.unique).2 hi
    obtain ⟨rules, hr⟩ :=
      (exists_field_iff fun _ _ => hT.unique).2 fun v hv => (hrules v hv).2 (hr v hv)
    obtain ⟨shellcheck, hs⟩ :=
      (exists_field_iff fun _ _ => hT.unique).2 fun v hv => (hsection v hv).2 (hs v hv)
    exact ⟨⟨ignored, rules, shellcheck⟩, hi, hr, hs⟩

/-! ### Edits of a document -/

theorem denotedBy_edit (h : Edit T T') : DenotedBy T f ↔ DenotedBy T' f := by
  have h₁ : Field (fun v => ("ignored", v) ∈ T) IsTexts [] f.ignored ↔ _ :=
    Field.edit (by decide) (by simp) h
  have h₂ : Field (fun v => ("rules", v) ∈ T) RuleTable.DenotedBy (fun _ => none) f.rules ↔ _ :=
    Field.edit (by decide) (fun v v' hv _ => RuleTable.denotedBy_edit (by simpa using hv)) h
  have h₃ : Field (fun v => ("shellcheck", v) ∈ T) AnalyzerSettings.DenotedBy {} f.shellcheck ↔ _ :=
    Field.edit (by decide) (fun v v' hv _ => AnalyzerSettings.denotedBy_edit (by simpa using hv)) h
  exact ⟨fun ⟨hi, hr, hs⟩ => ⟨h₁.1 hi, h₂.1 hr, h₃.1 hs⟩,
    fun ⟨hi, hr, hs⟩ => ⟨h₁.2 hi, h₂.2 hr, h₃.2 hs⟩⟩

/-- Any number of edits, made or taken back, changes nothing. -/
theorem denotedBy_edits (h : Relation.EqvGen Edit T T') : DenotedBy T f ↔ DenotedBy T' f := by
  induction h with
  | rel T T' h => exact denotedBy_edit h
  | refl T => rfl
  | symm T T' _ ih => exact ih.symm
  | trans T T' T'' _ _ ih ih' => exact ih.trans ih'

theorem map_fields_of_edits (hT : (Value.table T).Distinct) (hT' : (Value.table T').Distinct)
    (h : Relation.EqvGen Edit T T') : (ofTable? T').map fields = (ofTable? T).map fields := by
  ext f
  rw [map_fields_eq_some_iff hT, map_fields_eq_some_iff hT']
  exact (denotedBy_edits h).symm

/-! ### Leaving out a key -/

theorem DenotedBy.without (h : DenotedBy T f) (key : String) :
    DenotedBy (without key T) (f.reset key) :=
  ⟨h.ignored.without key, h.rules.without key, h.shellcheck.without key⟩

theorem DenotedBy.setRules (h : DenotedBy T f) {v : Value} {settings : String → Option RuleSetting}
    (hv : RuleTable.DenotedBy v settings) :
    DenotedBy (set "rules" v T) { f with rules := settings } :=
  ⟨h.ignored.set_of_ne (by decide) v, Field.set_self hv T, h.shellcheck.set_of_ne (by decide) v⟩

theorem DenotedBy.setShellcheck (h : DenotedBy T f) {v : Value} {s : AnalyzerSettings}
    (hv : AnalyzerSettings.DenotedBy v s) :
    DenotedBy (set "shellcheck" v T) { f with shellcheck := s } :=
  ⟨h.ignored.set_of_ne (by decide) v, h.rules.set_of_ne (by decide) v, Field.set_self hv T⟩

/-- Leaving out one key of a document that says `f`, at any level, gives the field of the key its
default and leaves all others as they are. -/
structure LeavesOut (T : Table) (f : Fields) : Prop where
  document : ∀ key, (ofTable? (without key T)).map fields = some (f.reset key)
  shellcheck : ∀ t, ("shellcheck", .table t) ∈ T → ∀ key,
    (ofTable? (set "shellcheck" (.table (without key t)) T)).map fields =
      some { f with shellcheck := f.shellcheck.reset key }
  rules : ∀ members, ("rules", .table members) ∈ T → ∀ key,
    (ofTable? (set "rules" (.table (without key members)) T)).map fields =
      some { f with rules := Function.update f.rules key none }
  setting : ∀ members, ("rules", .table members) ∈ T → ∀ rule t, (rule, .table t) ∈ members → ∀ key,
    (ofTable? (set "rules" (.table (set rule (.table (without key t)) members)) T)).map fields =
      some { f with
        rules := Function.update f.rules rule ((f.rules rule).map (RuleSetting.reset key)) }

theorem leavesOut (hT : (Value.table T).Distinct) (h : DenotedBy T f) : LeavesOut T f where
  document key := (map_fields_eq_some_iff (hT.without key)).2 (h.without key)
  shellcheck := by
    intro t ht key
    have hs := h.shellcheck.of_mem hT ht
    have ht' := (hT.of_mem ht).without key
    exact (map_fields_eq_some_iff (hT.set "shellcheck" ht')).2 (h.setShellcheck (hs.without key))
  rules := by
    intro members hmembers key
    have hr := h.rules.of_mem hT hmembers
    have hmembers' := (hT.of_mem hmembers).without key
    exact (map_fields_eq_some_iff (hT.set "rules" hmembers')).2 (h.setRules (hr.without key))
  setting := by
    intro members hmembers rule t ht key
    have hdistinct := hT.of_mem hmembers
    have hr := h.rules.of_mem hT hmembers
    obtain ⟨s, hrule, hs⟩ : Optionally RuleSetting.DenotedBy (.table t) (f.rules rule) := by
      obtain ⟨_, heq, hsettings⟩ := hr
      cases heq
      exact (hsettings rule).of_mem hdistinct ht
    have hmembers' := hdistinct.set rule ((hdistinct.of_mem ht).without key)
    rw [hrule, map_fields_eq_some_iff (hT.set "rules" hmembers')]
    exact h.setRules (hr.set rule (hs.without key))

/-! ### The main statement -/

/-- A document is read as a configuration exactly when each known key has a value of the right type.
What is read is what the document denotes, field by field, whatever the order of the keys and
whatever unknown keys there are; leaving out a key resets its own field only. -/
theorem ofTable?_fieldwise {text : String} (hT : Toml.parse? text = some T) :
    (NoMoments T → ((∃ c, ofTable? T = some c) ↔
      WellTyped (fun v => ∃ s, Severity.DenotedBy v s) T)) ∧
    (∀ f, (ofTable? T).map fields = some f ↔ DenotedBy T f) ∧
    (∀ T' c c', ofTable? T = some c → ofTable? T' = some c' →
      (T.lookup "ignored" = T'.lookup "ignored" → c.ignored = c'.ignored) ∧
      (T.lookup "rules" = T'.lookup "rules" → c.rules = c'.rules) ∧
      (T.lookup "shellcheck" = T'.lookup "shellcheck" → c.shellcheck = c'.shellcheck)) ∧
    (∀ T', (Value.table T').Distinct → Relation.EqvGen Edit T T' →
      (ofTable? T').map fields = (ofTable? T).map fields) ∧
    ∀ f, (ofTable? T).map fields = some f → LeavesOut T f := by
  have hdistinct := distinct_of_parse? hT
  refine ⟨exists_ofTable?_iff hdistinct, fun f => map_fields_eq_some_iff hdistinct, ?_, ?_, ?_⟩
  · intro T' c c' h h'
    exact eq_of_lookup_eq h h'
  · intro T' hT' hedits
    exact map_fields_of_edits hdistinct hT' hedits
  · intro f hf
    exact leavesOut hdistinct ((map_fields_eq_some_iff hdistinct).1 hf)

/-- A document with unknown keys, next to the known ones and in the setting of a rule, and with a
section that is written as an array of one element. -/
def sparseText : String :=
  "on = true\nshellcheck = [false]\n[rules.x]\nseverity = \"info\"\nby = 1"

/-- The table of `sparseText`. -/
def sparseTable : Table :=
  [("on", .boolean true), ("shellcheck", .array [.boolean false]),
    ("rules", .table [("x", .table [("severity", .string "info"), ("by", .integer 1)])])]

theorem ofTable?_fieldwise_sparse :
    Toml.parse? sparseText = some sparseTable ∧ NoMoments sparseTable ∧
    WellTyped (fun v => ∃ s, Severity.DenotedBy v s) sparseTable ∧
    (ofTable? (set "rules" (.table [("x", .table [("by", .integer 1)])]) sparseTable)).map fields =
      some ⟨[], Function.update (fun _ => none) "x" (some ⟨none, none⟩), { enabled := false }⟩ := by
  have hparse : Toml.parse? sparseText = some sparseTable := by decide +kernel
  have hmoments : NoMoments sparseTable := by
    constructor <;> simp [sparseTable, Value.IsMoment]
  have hread : ofTable? sparseTable =
      some ⟨[], ⟨[("x", ⟨none, some .info⟩)], by decide⟩, { enabled := false }⟩ := by
    rfl
  obtain ⟨hsuccess, -, -, -, hleft⟩ := ofTable?_fieldwise hparse
  refine ⟨hparse, hmoments, (hsuccess hmoments).1 ⟨_, hread⟩, ?_⟩
  have hsetting := (hleft _ (congrArg (Option.map fields) hread)).setting
    [("x", .table [("severity", .string "info"), ("by", .integer 1)])] (by simp [sparseTable]) "x" _
    List.mem_cons_self "severity"
  refine hsetting.trans (congrArg (fun rules => some (Fields.mk [] rules { enabled := false }))
    (funext fun key => ?_))
  by_cases hkey : key = "x"
  · subst hkey
    rfl
  · rw [Function.update_of_ne hkey, Function.update_of_ne hkey]
    exact lookup_eq_none_of_not_mem (by simpa [keysOf] using hkey)

/-- An empty array under the name of a severity is accepted like an empty table. -/
theorem ofTable?_severity_empty_array :
    ∃ T, Toml.parse? "rules.x.severity = \x7berror = []\x7d" = some T ∧ NoMoments T ∧
      (∃ c, ofTable? T = some c) ∧
      ¬WellTyped Severity.NamedBy T := by
  refine ⟨[("rules", .table [("x", .table [("severity", .table [("error", .array [])])])])],
    by decide +kernel, ?_, ⟨_, rfl⟩, ?_⟩
  · constructor <;> simp [Value.IsMoment]
  · intro h
    obtain ⟨members, heq, hmembers⟩ := h.rules _ List.mem_cons_self
    cases heq
    obtain ⟨s, hs | hs⟩ := (hmembers _ List.mem_cons_self).severity _ (.member List.mem_cons_self)
    · cases hs
    · simp at hs

end Config

end DockerfileLint
