import DockerfileLint.Config.Reader
import DockerfileLint.Proofs.Toml.Distinct
import Mathlib.Data.List.Forall2

/-!
# Fields

A field is what the value given for it means, and has a default where none is given (`Field`). The
value may be given under the name of the field, in a table, or at the place of its name, in an array
(`Gives`).

A table may be edited without saying anything new about its known keys: its members are put into
another order, an unknown key is added or removed, or the value of a member is edited in such a way
itself (`Edit`). No field sees it (`Field.edit`). Where a key is left out its field has the default,
and where it is set its field is what the new value means; all other fields stay as they are
(`Field.without`, `Field.set`).
-/

namespace DockerfileLint.Toml

/-! ### One field -/

section Field

variable {α : Type}

/-- What the value given for a field means, and the default where none is given. -/
def Field (given : Value → Prop) (means : Value → α → Prop) (fallback a : α) : Prop :=
  (∃ v, given v ∧ means v a) ∨ (∀ v, ¬given v) ∧ a = fallback

/-- The meaning of a value for a field that may also be unset. -/
def Optionally (means : Value → α → Prop) (v : Value) (o : Option α) : Prop :=
  ∃ a, o = some a ∧ means v a

variable {given given' : Value → Prop} {means means' : Value → α → Prop} {fallback a : α}

theorem Field.congr (hgiven : ∀ v, given v ↔ given' v) :
    Field given means fallback a ↔ Field given' means fallback a := by
  simp only [Field, hgiven]

theorem Field.of_given (h : Field given means fallback a)
    (hunique : ∀ v w, given v → given w → v = w) {v : Value} (hv : given v) : means v a := by
  rcases h with ⟨w, hw, hmeans⟩ | ⟨hnone, -⟩
  · rw [hunique v w hv hw]
    exact hmeans
  · exact absurd hv (hnone v)

theorem exists_field_iff (hunique : ∀ v w, given v → given w → v = w) :
    (∃ a, Field given means fallback a) ↔ ∀ v, given v → ∃ a, means v a := by
  constructor
  · rintro ⟨a, h⟩ v hv
    exact ⟨a, h.of_given hunique hv⟩
  · intro h
    by_cases hgiven : ∃ v, given v
    · obtain ⟨v, hv⟩ := hgiven
      obtain ⟨a, ha⟩ := h v hv
      exact ⟨a, .inl ⟨v, hv, ha⟩⟩
    · exact ⟨fallback, .inr ⟨not_exists.1 hgiven, rfl⟩⟩

theorem exists_optionally_iff {v : Value} : (∃ o, Optionally means v o) ↔ ∃ a, means v a := by
  simp [Optionally]

section Slot

variable {slot : Option Value}

/-- A field by the value that is found for it. -/
theorem field_iff_elim (hslot : ∀ v, slot = some v ↔ given v) :
    Field given means fallback a ↔ slot.elim (a = fallback) (means · a) := by
  cases slot with
  | none =>
    have hnone : ∀ v, ¬given v := fun v hv => nomatch (hslot v).2 hv
    simp [Field, hnone]
  | some v =>
    have hv : given v := (hslot v).1 rfl
    constructor
    · intro h
      exact h.of_given (fun w w' hw hw' =>
        Option.some.inj (((hslot w).2 hw).symm.trans ((hslot w').2 hw'))) hv
    · intro h
      exact .inl ⟨v, hv, h⟩

/-- What is read for a field with a default, up to a view of it. -/
theorem exists_field?_view_iff {β : Type} (view : β → α) {read : Value → Option β} {base : β}
    (hslot : ∀ v, slot = some v ↔ given v)
    (hread : ∀ v, given v → ∀ a, (read v).map view = some a ↔ means v a) :
    (∃ o, field? read slot = some o ∧ view (o.getD base) = a) ↔
      Field given means (view base) a := by
  rw [field_iff_elim hslot]
  cases slot with
  | none => simp [field?, eq_comm]
  | some v =>
    rw [Option.elim_some, ← hread v ((hslot v).1 rfl) a]
    simp [field?]

theorem exists_field?_iff {read : Value → Option α} (hslot : ∀ v, slot = some v ↔ given v)
    (hread : ∀ v, given v → ∀ a, read v = some a ↔ means v a) :
    (∃ o, field? read slot = some o ∧ o.getD fallback = a) ↔ Field given means fallback a :=
  exists_field?_view_iff id hslot (by simpa using hread)

theorem field?_eq_some_iff {read : Value → Option α} (hslot : ∀ v, slot = some v ↔ given v)
    (hread : ∀ v, given v → ∀ a, read v = some a ↔ means v a) {o : Option α} :
    field? read slot = some o ↔ Field given (Optionally means) none o := by
  rw [field_iff_elim hslot]
  cases slot with
  | none => simp [field?, eq_comm]
  | some v => simp [field?, Optionally, ← hread v ((hslot v).1 rfl), eq_comm, and_comm]

end Slot

end Field

/-! ### Records -/

/-- A value in which fields can be given. -/
inductive Value.IsRecord : Value → Prop
  | table (members : Table) : IsRecord (.table members)
  | array (items : List Value) : IsRecord (.array items)

/-- A date or time. -/
def Value.IsMoment (v : Value) : Prop := ∃ spelling, v = .moment spelling

/-- The value given for a named field: under its name in a table, and at the place of its name in an
array. -/
inductive Gives (names : List String) (name : String) : Value → Value → Prop
  | member {members : Table} {v : Value} (h : (name, v) ∈ members) :
      Gives names name (.table members) v
  | item {items : List Value} {i : Nat} {v : Value} (hname : names[i]? = some name)
      (hitem : items[i]? = some v) :
      Gives names name (.array items) v

section Records

variable {names : List String} {name : String} {v w w' : Value} {members : Table}
  {items : List Value}

theorem gives_table_iff : Gives names name (.table members) w ↔ (name, w) ∈ members :=
  ⟨fun | .member h => h, .member⟩

theorem gives_array_iff (hnames : names.Nodup) {i : Nat} (hi : names[i]? = some name) :
    Gives names name (.array items) w ↔ items[i]? = some w := by
  refine ⟨?_, .item hi⟩
  rintro (_ | ⟨hj, hitem⟩)
  have hlt := (List.getElem?_eq_some_iff.1 hi).1
  rwa [(List.getElem?_inj hlt hnames).1 (hi.trans hj.symm)]

theorem Value.Distinct.nodup (h : (Value.table members).Distinct) : (keysOf members).Nodup := by
  cases h with
  | table hkeys _ => exact hkeys

theorem Value.Distinct.of_mem (h : (Value.table members).Distinct) (hmem : (name, v) ∈ members) :
    v.Distinct := by
  cases h with
  | table _ hmembers => exact hmembers _ hmem

/-- In a table with each key once a key has one value. -/
theorem Value.Distinct.unique (h : (Value.table members).Distinct) (hw : (name, w) ∈ members)
    (hw' : (name, w') ∈ members) : w = w' := by
  rw [← lookup_eq_some_iff_mem h.nodup] at hw hw'
  exact Option.some.inj (hw.symm.trans hw')

theorem Field.of_mem {α : Type} {means : Value → α → Prop} {fallback a : α}
    (h : Field (fun v => (name, v) ∈ members) means fallback a)
    (hmembers : (Value.table members).Distinct) (hmem : (name, v) ∈ members) : means v a :=
  h.of_given (fun _ _ => hmembers.unique) hmem

theorem Gives.unique (hnames : names.Nodup) (hv : v.Distinct) (hw : Gives names name v w)
    (hw' : Gives names name v w') : w = w' := by
  cases hw with
  | member h => exact hv.unique h (gives_table_iff.1 hw')
  | item hname hitem =>
    rw [gives_array_iff hnames hname, hitem] at hw'
    exact Option.some.inj hw'

theorem exists_slots? (h : v.IsRecord ∨ v.IsMoment) (names : List String) :
    ∃ slots, slots? names v = some slots := by
  rcases h with (_ | _) | ⟨_, rfl⟩ <;> exact ⟨_, rfl⟩

theorem slots?_eq_none (h : ¬(v.IsRecord ∨ v.IsMoment)) (names : List String) :
    slots? names v = none := by
  unfold slots?
  split
  · exact absurd (.inl (.table _)) h
  · exact absurd (.inl (.array _)) h
  · exact absurd (.inr ⟨_, rfl⟩) h
  · rfl

/-- The values that are found for fields are those given for them. -/
theorem gives_of_slots? (hnames : names.Nodup) (hv : v.Distinct) {slots : List (Option Value)}
    (h : slots? names v = some slots) :
    List.Forall₂ (fun name slot => ∀ w, slot = some w ↔ Gives names name v w) names slots := by
  unfold slots? at h
  split at h
  · cases h
    refine List.forall₂_map_right_iff.2 (List.forall₂_same.2 fun name _ w => ?_)
    rw [gives_table_iff, lookup_eq_some_iff_mem hv.nodup]
  · cases h
    refine List.forall₂_iff_get.2 ⟨by simp, fun i hi _ w => ?_⟩
    rw [List.get_eq_getElem, List.get_eq_getElem,
      gives_array_iff hnames (List.getElem?_eq_getElem hi)]
    simp
  · cases h
    exact List.forall₂_map_right_iff.2
      (List.forall₂_same.2 fun name _ w => iff_of_false nofun nofun)
  · cases h

end Records

/-! ### Edits -/

/-- One edit of a table that says nothing new about its known keys: its members in another order, an
unknown key more, or a value that is edited within. -/
inductive Edit (known : String → Prop) (within : String → Value → Value → Prop) :
    Table → Table → Prop
  | reorder {t t' : Table} (h : t.Perm t') : Edit known within t t'
  | add {key : String} (h : ¬known key) (v : Value) (t : Table) :
      Edit known within t ((key, v) :: t)
  | inside {key : String} {v v' : Value} (h : within key v v') (t : Table) :
      Edit known within ((key, v) :: t) ((key, v') :: t)

/-- An edit of a value that is a table. -/
inductive EditTable (known : String → Prop) (within : String → Value → Value → Prop) :
    Value → Value → Prop
  | table {t t' : Table} (h : Edit known within t t') :
      EditTable known within (.table t) (.table t')

/-- No edits within the values. -/
def Untouched (_ : String) (_ _ : Value) : Prop := False

/-- A table without a key. -/
def without (key : String) (t : Table) : Table := t.filter fun m => m.1 ≠ key

/-- A table with a value under a key, in place of the one that may be there. -/
def set (key : String) (v : Value) (t : Table) : Table := (key, v) :: without key t

section Edits

variable {α : Type} {means : Value → α → Prop} {fallback a : α} {name key : String} {t t' : Table}
  {v : Value}

theorem mem_without {m : String × Value} : m ∈ without key t ↔ m ∈ t ∧ m.1 ≠ key := by
  simp [without]

theorem Value.Distinct.without (h : (Value.table t).Distinct) (key : String) :
    (Value.table (without key t)).Distinct :=
  .table (h.nodup.sublist (List.filter_sublist.map _)) fun _ hm => h.of_mem (mem_without.1 hm).1

theorem Value.Distinct.set (h : (Value.table t).Distinct) (key : String) (hv : v.Distinct) :
    (Value.table (set key v t)).Distinct := by
  refine .table (List.nodup_cons.2 ⟨?_, (h.without key).nodup⟩) (List.forall_mem_cons.2 ⟨hv, ?_⟩)
  · intro hmem
    obtain ⟨m, hm, hkey⟩ := List.mem_map.1 hmem
    exact (mem_without.1 hm).2 hkey
  · exact fun m hm => (h.without key).of_mem hm

/-- A known field does not see an edit, where its meaning does not see the edits within its
values. -/
theorem Field.edit {known : String → Prop} {within : String → Value → Value → Prop}
    (hname : known name) (hwithin : ∀ v v', within name v v' → ∀ a, means v a ↔ means v' a)
    (h : Edit known within t t') :
    Field (fun v => (name, v) ∈ t) means fallback a ↔
      Field (fun v => (name, v) ∈ t') means fallback a := by
  cases h with
  | reorder h => exact Field.congr fun v => h.mem_iff
  | @add key hkey v t =>
    have hne : name ≠ key := fun heq => hkey (heq ▸ hname)
    exact Field.congr fun w => by simp [hne]
  | @inside key v v' hv t =>
    by_cases hne : name = key
    · subst hne
      simp only [Field, List.mem_cons, Prod.mk.injEq, true_and, or_and_right, exists_or,
        exists_eq_left, not_or, forall_and, forall_eq, hwithin v v' hv a]
    · exact Field.congr fun w => by simp [hne]

theorem Field.without (h : Field (fun v => (name, v) ∈ t) means fallback a) (key : String) :
    Field (fun v => (name, v) ∈ without key t) means fallback
      (if key = name then fallback else a) := by
  split_ifs with hkey
  · exact .inr ⟨fun v hv => (mem_without.1 hv).2 hkey.symm, rfl⟩
  · refine (Field.congr fun v => ?_).1 h
    rw [mem_without]
    exact ⟨fun hv => ⟨hv, fun heq => hkey heq.symm⟩, And.left⟩

/-- The same for a field of a record that is written as a table. -/
theorem Field.edit_gives {names : List String} (hname : name ∈ names)
    (h : Edit (· ∈ names) Untouched t t') :
    Field (Gives names name (.table t)) means fallback a ↔
      Field (Gives names name (.table t')) means fallback a := by
  rw [Field.congr fun v => gives_table_iff, Field.congr fun v => gives_table_iff]
  exact Field.edit hname (fun _ _ h => h.elim) h

theorem Field.without_gives {names : List String}
    (h : Field (Gives names name (.table t)) means fallback a) (key : String) :
    Field (Gives names name (.table (Toml.without key t))) means fallback
      (if key = name then fallback else a) := by
  rw [Field.congr fun v => gives_table_iff] at h ⊢
  exact h.without key

theorem Field.set_self (h : means v a) (t : Table) :
    Field (fun w => (key, w) ∈ set key v t) means fallback a :=
  .inl ⟨v, List.mem_cons_self, h⟩

theorem Field.set_of_ne (h : Field (fun v => (name, v) ∈ t) means fallback a) (hne : name ≠ key)
    (v : Value) :
    Field (fun w => (name, w) ∈ set key v t) means fallback a := by
  refine (Field.congr fun w => ?_).1 h
  simp [set, mem_without, hne]

end Edits

end DockerfileLint.Toml
