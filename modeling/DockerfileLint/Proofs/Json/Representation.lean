import DockerfileLint.Proofs.Json.Decoding
import Mathlib.Data.List.Forall2

/-!
# What decoders accept

Which documents stand for a value is said by a relation of its own, without reference to a decoder.
A decoder decides the relation if it reads a document as a value exactly when the document stands
for it and there is room for the nesting of the value (`Decoder.Decides`). The document that is
written for a value has that nesting; a part of another document that is skipped does not count.

A record is written as an object or as the array of its fields (`IsRecord`). `isRecord_iff_slots`
ties this to the fields as the decoders take them out of a document, and `decides_record` to the
decoders of records.
-/

namespace DockerfileLint.Json

/-! ### Records -/

/-- A field of a record: its name, and what may stand there, which is nothing where the field is
missing. -/
structure Field where
  name : String
  accepts : Option Json → Prop

/-- A field that has to be there. -/
def Field.required (name : String) (stands : Json → Prop) : Field where
  name := name
  accepts given := ∃ v, given = some v ∧ stands v

/-- A text that may be missing; it may also be given as null. -/
def Field.optionalText (name : String) (s : Option String) : Field where
  name := name
  accepts given := (s = none ∧ (given = none ∨ given = some .null)) ∨
    ∃ t, s = some t ∧ given = some (.str t)

/-- The values of the members with a name, in order. -/
def valuesOf (name : String) (members : List (String × Json)) : List Json :=
  (members.filter fun m => m.1 == name).map Prod.snd

/-- The items of an array are the fields in order, of which the last ones may be missing. -/
inductive InOrder : List Field → List Json → Prop
  | nil : InOrder [] []
  | missing {f : Field} {fields : List Field} (h : f.accepts none) (hrest : InOrder fields []) :
      InOrder (f :: fields) []
  | cons {f : Field} {fields : List Field} {v : Json} {items : List Json} (h : f.accepts (some v))
      (hrest : InOrder fields items) : InOrder (f :: fields) (v :: items)

/-- A record is an object, in which each field is given at most once and other members are passed
over, or the array of its fields. -/
inductive IsRecord (fields : List Field) : Json → Prop
  | object {members : List (String × Json)}
      (h : ∀ f ∈ fields, ∃ given : Option Json, valuesOf f.name members = given.toList ∧
        f.accepts given) :
      IsRecord fields (.obj members)
  | array {items : List Json} (h : InOrder fields items) : IsRecord fields (.array items)

/-! ### Fields as they are found -/

theorem eq_toList_iff {α : Type} {xs : List α} {x : Option α} :
    xs = x.toList ↔ xs.length ≤ 1 ∧ x = xs.head? := by
  rcases xs with _ | ⟨y, _ | ⟨z, xs⟩⟩ <;> cases x <;> simp [eq_comm]

/-- An object whose keys are all texts. -/
theorem exists_eq_obj {members : List (Option String × Json)}
    (h : members.all (fun m => m.1.isSome) = true) :
    ∃ named, object members = obj named := by
  induction members with
  | nil => exact ⟨[], rfl⟩
  | cons m members ih =>
    obtain ⟨_ | key, v⟩ := m
    · simp at h
    · obtain ⟨named, hnamed⟩ := ih (by simpa using h)
      rw [obj, object.injEq] at hnamed
      exact ⟨(key, v) :: named, by rw [hnamed]; rfl⟩

namespace Decoder

/-- The fields of an object are the members with their names, as long as no name stands twice. -/
theorem slots_obj_eq (names : List String) (members : List (String × Json)) :
    slots names (.obj members) =
      if ∀ name ∈ names, (valuesOf name members).length ≤ 1 then
        some (names.map fun name => (valuesOf name members).head?)
      else none := by
  have hsome : (members.map fun m => (some m.1, m.2)).all (fun m => m.1.isSome) = true := by simp
  have hcount : ∀ name, (members.map fun m => (some m.1, m.2)).countP (fun m => m.1 == some name) =
      (valuesOf name members).length := by
    intro name
    rw [List.countP_map, valuesOf, List.length_map, List.countP_eq_length_filter]
    rfl
  have hlookup : ∀ name, lookup name (members.map fun m => (some m.1, m.2)) =
      (valuesOf name members).head? := by
    intro name
    rw [lookup, valuesOf, List.head?_map, List.head?_filter, List.find?_map, Option.map_map]
    rfl
  rw [obj, slots, hsome, Bool.true_and]
  simp only [hcount, hlookup, List.all_eq_true, decide_eq_true_eq]

end Decoder

/-- Items in order, padded with what is missing, fill the fields one by one. -/
theorem inOrder_iff (fields : List Field) (items : List Json) :
    InOrder fields items ↔ items.length ≤ fields.length ∧
      List.Forall₂ Field.accepts fields
        (items.map some ++ List.replicate (fields.length - items.length) none) := by
  induction fields generalizing items with
  | nil =>
    cases items with
    | nil => simpa using InOrder.nil
    | cons v items => simpa using nofun
  | cons f fields ih =>
    cases items with
    | nil =>
      have hrest := ih []
      simp only [List.length_nil, Nat.zero_le, List.map_nil, List.nil_append, Nat.sub_zero,
        true_and] at hrest
      simp only [List.length_cons, List.length_nil, Nat.zero_le, true_and, List.map_nil,
        List.nil_append, Nat.sub_zero, List.replicate_succ, List.forall₂_cons, ← hrest]
      exact ⟨fun | .missing h hrest => ⟨h, hrest⟩, fun h => .missing h.1 h.2⟩
    | cons v items =>
      simp only [List.length_cons, Nat.add_le_add_iff_right, Nat.add_sub_add_right, List.map_cons,
        List.cons_append, List.forall₂_cons]
      rw [and_left_comm, ← ih]
      exact ⟨fun | .cons h hrest => ⟨h, hrest⟩, fun h => .cons h.1 h.2⟩

/-- A document is a record exactly when the fields that are found in it are ones that may stand
there. -/
theorem isRecord_iff_slots (fields : List Field) (v : Json) :
    IsRecord fields v ↔ ∃ given, Decoder.slots (fields.map Field.name) v = some given ∧
      List.Forall₂ Field.accepts fields given := by
  constructor
  · rintro (@⟨members, h⟩ | @⟨items, h⟩)
    · refine ⟨(fields.map Field.name).map fun name => (valuesOf name members).head?, ?_, ?_⟩
      · rw [Decoder.slots_obj_eq, if_pos]
        rw [List.forall_mem_map]
        intro f hf
        obtain ⟨given, hgiven, -⟩ := h f hf
        exact (eq_toList_iff.1 hgiven).1
      · rw [List.map_map, List.forall₂_map_right_iff, List.forall₂_same]
        intro f hf
        obtain ⟨given, hgiven, haccepts⟩ := h f hf
        rwa [Function.comp, ← (eq_toList_iff.1 hgiven).2]
    · obtain ⟨hlength, hfields⟩ := (inOrder_iff fields items).1 h
      refine ⟨_, ?_, hfields⟩
      rw [Decoder.slots, List.length_map, if_pos hlength]
  · rintro ⟨given, hslots, hfields⟩
    cases v with
    | null | bool | integer | decimal | text => cases hslots
    | array items =>
      rw [Decoder.slots, List.length_map] at hslots
      split at hslots
      · cases hslots
        exact .array ((inOrder_iff fields items).2 ⟨‹_›, hfields⟩)
      · cases hslots
    | object members =>
      have hkeys : members.all (fun m => m.1.isSome) = true := by
        rw [Decoder.slots] at hslots
        split at hslots
        · rename_i hcond
          exact (Bool.and_eq_true_iff.1 hcond).1
        · cases hslots
      obtain ⟨named, hnamed⟩ := exists_eq_obj hkeys
      rw [hnamed, Decoder.slots_obj_eq] at hslots
      rw [hnamed]
      split at hslots
      · rename_i hone
        cases hslots
        rw [List.map_map, List.forall₂_map_right_iff, List.forall₂_same] at hfields
        refine .object fun f hf => ⟨_, eq_toList_iff.2 ⟨?_, rfl⟩, hfields f hf⟩
        exact hone _ (List.mem_map_of_mem hf)
      · cases hslots

/-! ### Nesting of records -/

theorem depth_lt_of_mem_items {items : List Json} {v : Json} (h : v ∈ items) :
    v.depth < (array items).depth := by
  rw [depth]
  exact Nat.lt_succ_of_le (itemsDepth_le.1 (Nat.le_refl _) v h)

theorem depth_lt_of_mem_members {members : List (String × Json)} {m : String × Json}
    (h : m ∈ members) :
    m.2.depth < (obj members).depth := by
  rw [obj, depth]
  exact Nat.lt_succ_of_le (membersDepth_le.1 (Nat.le_refl _) (some m.1, m.2)
    (List.mem_map_of_mem h))

theorem IsRecord.depth_pos {fields : List Field} {v : Json} (h : IsRecord fields v) :
    0 < v.depth := by
  cases h with
  | object => exact Nat.succ_pos _
  | array => exact Nat.succ_pos _

theorem InOrder.exists_accepts {fields : List Field} {items : List Json} (h : InOrder fields items)
    {f : Field} (hf : f ∈ fields) :
    ∃ given : Option Json, f.accepts given ∧ ∀ w ∈ given, w ∈ items := by
  induction h with
  | nil => cases hf
  | missing hnone _ ih =>
    rcases List.mem_cons.1 hf with rfl | hf
    · exact ⟨none, hnone, by simp⟩
    · exact ih hf
  | @cons _ _ v items hsome _ ih =>
    rcases List.mem_cons.1 hf with rfl | hf
    · exact ⟨some v, hsome, by simp⟩
    · obtain ⟨given, haccepts, hmem⟩ := ih hf
      exact ⟨given, haccepts, fun w hw => List.mem_cons_of_mem _ (hmem w hw)⟩

/-- What stands in a field of a record nests less deep than the record. -/
theorem IsRecord.exists_accepts {fields : List Field} {v : Json} (h : IsRecord fields v) {f : Field}
    (hf : f ∈ fields) :
    ∃ given : Option Json, f.accepts given ∧ ∀ w ∈ given, w.depth < v.depth := by
  cases h with
  | @object members h =>
    obtain ⟨given, hgiven, haccepts⟩ := h f hf
    refine ⟨given, haccepts, fun w hw => ?_⟩
    have hmem : w ∈ valuesOf f.name members := by
      rw [hgiven]
      exact Option.mem_toList.2 hw
    obtain ⟨m, hm, rfl⟩ := List.mem_map.1 hmem
    exact depth_lt_of_mem_members (List.mem_filter.1 hm).1
  | array h =>
    obtain ⟨given, haccepts, hmem⟩ := h.exists_accepts hf
    exact ⟨given, haccepts, fun w hw => depth_lt_of_mem_items (hmem w hw)⟩

/-! ### Decoders -/

namespace Decoder

variable {α : Type}

/-- The decoder reads a document as `x` exactly when the document stands for `x` and there is room
for the nesting of `x`, which is that of the document that is written for it. -/
def Decides (d : Decoder α) (stands : α → Json → Prop) (write : α → Json) : Prop :=
  ∀ room v x, d room v = some x ↔ stands x v ∧ (write x).depth ≤ room

@[simp] theorem string_eq_some_iff {room : Nat} {v : Json} {s : String} :
    string room v = some s ↔ v = .str s := by
  constructor
  · intro h
    unfold string at h
    split at h
    · cases h
      rfl
    · cases h
  · rintro rfl
    rfl

theorem decides_string : string.Decides (fun s v => v = .str s) .str := by
  intro room v s
  rw [string_eq_some_iff, and_iff_left ((isLeaf_str s).depth_le room)]

/-- An integer is read within its bounds. -/
theorem integer_eq_some_iff {low high n : Int} {room : Nat} {v : Json} :
    integer low high room v = some n ↔ v = .integer n ∧ low ≤ n ∧ n < high := by
  constructor
  · intro h
    unfold integer at h
    split at h
    · split at h
      · cases h
        exact ⟨rfl, ‹_›⟩
      · cases h
    · cases h
  · rintro ⟨rfl, hlow, hhigh⟩
    exact integer_of_mem hlow hhigh room

theorem decides_int64 :
    int64.Decides (fun n v => v = .integer n.toInt) (fun n => .integer n.toInt) := by
  intro room v n
  rw [and_iff_left ((isLeaf_integer _).depth_le room)]
  constructor
  · intro h
    obtain ⟨k, hk, rfl⟩ := Option.map_eq_some_iff.1 h
    obtain ⟨rfl, hlow, hhigh⟩ := integer_eq_some_iff.1 hk
    rw [Int64.toInt_ofInt_of_le hlow hhigh]
  · rintro rfl
    exact (reads_int64 n).decode_leaf (isLeaf_integer _) room

theorem decides_uint32 : uint32.Decides (fun n v => v = .nat n.toNat) (fun n => .nat n.toNat) := by
  intro room v n
  rw [and_iff_left ((isLeaf_nat _).depth_le room)]
  constructor
  · intro h
    obtain ⟨k, hk, rfl⟩ := Option.map_eq_some_iff.1 h
    obtain ⟨rfl, hlow, hhigh⟩ := integer_eq_some_iff.1 hk
    have hlt : k.toNat < UInt32.size := by
      rw [UInt32.size]
      omega
    rw [nat, UInt32.toNat_ofNat_of_lt' hlt, Int.toNat_of_nonneg hlow]
  · rintro rfl
    exact (reads_uint32 n).decode_leaf (isLeaf_nat _) room

theorem mapM_eq_some_iff_of_decides {item : Decoder α} {stands : α → Json → Prop} {write : α → Json}
    (h : item.Decides stands write) (room : Nat) (items : List Json) (xs : List α) :
    items.mapM (item room) = some xs ↔
      List.Forall₂ stands xs items ∧ ∀ v ∈ xs.map write, v.depth ≤ room := by
  induction items generalizing xs with
  | nil => cases xs <;> simp
  | cons v items ih =>
    rw [List.mapM_cons]
    simp only [Option.bind_eq_bind, Option.bind_eq_some_iff, h room v, ih]
    constructor
    · rintro ⟨x, ⟨hx, hdepth⟩, ys, ⟨hys, hdepths⟩, heq⟩
      cases heq
      exact ⟨.cons hx hys, List.forall_mem_cons.2 ⟨hdepth, hdepths⟩⟩
    · rintro ⟨hall, hdepths⟩
      cases hall with
      | @cons x _ xs _ hx hxs =>
        obtain ⟨hdepth, hdepths⟩ := List.forall_mem_cons.1 hdepths
        exact ⟨x, ⟨hx, hdepth⟩, xs, ⟨hxs, hdepths⟩, rfl⟩

/-- An array of like values. -/
theorem Decides.list {item : Decoder α} {stands : α → Json → Prop} {write : α → Json}
    (h : item.Decides stands write) :
    (list item).Decides (fun xs v => ∃ items, v = .array items ∧ List.Forall₂ stands xs items)
      (fun xs => .array (xs.map write)) := by
  intro room v xs
  cases room with
  | zero => exact iff_of_false (by simp [Decoder.list]) fun h => not_depth_array_le_zero _ h.2
  | succ room =>
    cases v with
    | array items =>
      rw [Decoder.list, mapM_eq_some_iff_of_decides h, depth_array_le]
      simp
    | null | bool | integer | decimal | text | object => simp [Decoder.list]

/-- An array of values that are written in one way only. -/
theorem Decides.list_of_unique {item : Decoder α} {write : α → Json}
    (h : item.Decides (fun x v => v = write x) write) :
    (Decoder.list item).Decides (fun xs v => v = .array (xs.map write))
      (fun xs => .array (xs.map write)) := by
  intro room v xs
  have hitems : ∀ items, List.Forall₂ (fun x v => v = write x) xs items ↔ items = xs.map write := by
    intro items
    rw [eq_comm, ← List.forall₂_eq_eq_eq, List.forall₂_map_left_iff]
    simp only [eq_comm]
  rw [h.list room v xs]
  simp only [hitems, exists_eq_right]

theorem decides_pair : pair.Decides (fun p v => v = .array [.str p.1, .str p.2])
    (fun p => .array [.str p.1, .str p.2]) := by
  intro room v p
  constructor
  · intro h
    unfold pair at h
    split at h
    · rename_i room a b
      obtain ⟨s, hs, h⟩ := Option.bind_eq_some_iff.1 h
      obtain ⟨t, ht, h⟩ := Option.bind_eq_some_iff.1 h
      cases h
      rw [string_eq_some_iff.1 hs, string_eq_some_iff.1 ht]
      exact ⟨rfl, by simp [(isLeaf_str _).depth_le]⟩
    · cases h
  · rintro ⟨rfl, hdepth⟩
    rw [(reads_pair p).decode, if_pos hdepth]

/-- A field that has to be there. -/
theorem required_eq_some_iff {d : Decoder α} {stands : α → Json → Prop} {write : α → Json}
    (h : d.Decides stands write) (name : String) (room : Nat) {given : Option Json} {x : α} :
    required d room given = some x ↔
      (Field.required name (stands x)).accepts given ∧ (write x).depth ≤ room := by
  cases given with
  | none => simp [required, Field.required]
  | some v => simp [required, Field.required, h room v]

/-- A text that may be missing. -/
theorem optional_eq_some_iff (name : String) (room : Nat) {given : Option Json}
    {s : Option String} :
    optional string room given = some s ↔ (Field.optionalText name s).accepts given := by
  unfold Field.optionalText
  cases given with
  | none => cases s <;> simp [optional]
  | some v =>
    cases v with
    | null => cases s <;> simp [optional, str]
    | bool | integer | decimal | text | array | object =>
      cases s <;> simp [optional]

/-- A record is read as `x` when its fields are those of `x`. -/
theorem decides_record {names : List String} {build : Nat → List (Option Json) → Option α}
    {fields : α → List Field} {members : α → List (String × Json)}
    (hnames : ∀ x, (fields x).map Field.name = names)
    (hbuild : ∀ room given x, build room given = some x ↔
      List.Forall₂ Field.accepts (fields x) given ∧ ∀ m ∈ members x, m.2.depth ≤ room) :
    (record names build).Decides (fun x v => IsRecord (fields x) v)
      (fun x => .obj (members x)) := by
  intro room v x
  cases room with
  | zero => exact iff_of_false (by simp [record]) fun h => not_depth_obj_le_zero _ h.2
  | succ room =>
    simp only [record, Option.bind_eq_some_iff, isRecord_iff_slots, hnames, depth_obj_le, hbuild]
    constructor
    · rintro ⟨given, hslots, hfields, hdepth⟩
      exact ⟨⟨given, hslots, hfields⟩, hdepth⟩
    · rintro ⟨⟨given, hslots, hfields⟩, hdepth⟩
      exact ⟨given, hslots, hfields, hdepth⟩

/-- A record of leaves. -/
theorem decides_record_of_leaves {names : List String} {build : Nat → List (Option Json) → Option α}
    {fields : α → List Field} {members : α → List (String × Json)}
    (hnames : ∀ x, (fields x).map Field.name = names) (hleaves : ∀ x, ∀ m ∈ members x, m.2.IsLeaf)
    (hbuild : ∀ room given x, build room given = some x ↔
      List.Forall₂ Field.accepts (fields x) given) :
    (record names build).Decides (fun x v => IsRecord (fields x) v)
      (fun x => .obj (members x)) := by
  refine decides_record hnames fun room given x => ?_
  rw [hbuild, and_iff_left fun m hm => (hleaves x m hm).depth_le room]

end Decoder

end DockerfileLint.Json
