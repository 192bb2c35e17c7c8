import DockerfileLint.Json.Decoder
import DockerfileLint.Proofs.Json.Reading
import Mathlib.Data.List.Nodup

/-!
# What decoders read

A document stands for a value if the decoder reads it as that value whenever there is room for its
nesting, and fails otherwise (`Decoder.Reads`). Each way to build a decoder has its lemma: texts,
numbers, arrays and records. The text of such a document is then decoded within the nesting limit
and refused beyond it (`Decoder.Reads.parse?_compact`).
-/

namespace DockerfileLint.Json

/-! ### Nesting -/

mutual

/-- The greatest number of arrays and objects inside one another. -/
def depth : Json → Nat
  | .array items => itemsDepth items + 1
  | .object members => membersDepth members + 1
  | .null | .bool _ | .integer _ | .decimal _ | .text _ => 0

/-- The greatest depth of an item. -/
def itemsDepth : List Json → Nat
  | [] => 0
  | v :: rest => max (depth v) (itemsDepth rest)

/-- The greatest depth of the value of a member. -/
def membersDepth : List (Option String × Json) → Nat
  | [] => 0
  | (_, v) :: rest => max (depth v) (membersDepth rest)

end

theorem itemsDepth_le {items : List Json} {n : Nat} :
    itemsDepth items ≤ n ↔ ∀ v ∈ items, v.depth ≤ n := by
  induction items with
  | nil => simp [itemsDepth]
  | cons v items ih => rw [itemsDepth, Nat.max_le, ih, List.forall_mem_cons]

theorem membersDepth_le {members : List (Option String × Json)} {n : Nat} :
    membersDepth members ≤ n ↔ ∀ m ∈ members, m.2.depth ≤ n := by
  induction members with
  | nil => simp [membersDepth]
  | cons m members ih => rw [membersDepth, Nat.max_le, ih, List.forall_mem_cons]

@[simp] theorem depth_array_le {items : List Json} {n : Nat} :
    (array items).depth ≤ n + 1 ↔ ∀ v ∈ items, v.depth ≤ n := by
  rw [depth, Nat.add_le_add_iff_right, itemsDepth_le]

@[simp] theorem depth_obj_le {members : List (String × Json)} {n : Nat} :
    (obj members).depth ≤ n + 1 ↔ ∀ m ∈ members, m.2.depth ≤ n := by
  rw [obj, depth, Nat.add_le_add_iff_right, membersDepth_le, List.forall_mem_map]

@[simp] theorem not_depth_array_le_zero (items : List Json) : ¬(array items).depth ≤ 0 := by
  rw [depth]
  omega

@[simp] theorem not_depth_obj_le_zero (members : List (String × Json)) :
    ¬(obj members).depth ≤ 0 := by
  rw [obj, depth]
  omega

theorem Exact.obj {members : List (String × Json)} (h : ∀ m ∈ members, m.2.Exact) :
    (obj members).Exact :=
  Exact.object (List.forall_mem_map.2 h)

/-- A document without decimals that is no array or object. -/
structure IsLeaf (v : Json) : Prop where
  exact : v.Exact
  depth_eq : v.depth = 0

theorem IsLeaf.depth_le {v : Json} (h : v.IsLeaf) (n : Nat) : v.depth ≤ n := by
  rw [h.depth_eq]
  exact Nat.zero_le n

@[simp] theorem isLeaf_str (s : String) : (str s).IsLeaf := ⟨.text _, rfl⟩

@[simp] theorem isLeaf_bool (b : Bool) : (bool b).IsLeaf := ⟨.bool _, rfl⟩

@[simp] theorem isLeaf_integer (n : Int) : (integer n).IsLeaf := ⟨.integer _, rfl⟩

@[simp] theorem isLeaf_nat (n : Nat) : (nat n).IsLeaf := isLeaf_integer n

namespace Decoder

variable {α β : Type}

/-- The decoder reads the document as `x`, given room for its nesting, and fails without. -/
structure Reads (d : Decoder α) (v : Json) (x : α) : Prop where
  exact : v.Exact
  decode : ∀ room, d room v = if v.depth ≤ room then some x else none

/-- The text of a document is decoded exactly when it nests within the limit. -/
theorem Reads.parse?_compact {d : Decoder α} {v : Json} {x : α} (h : d.Reads v x) :
    d.parse? (String.ofList v.compact) = if v.depth ≤ nestingLimit then some x else none := by
  rw [parse?, Json.parse?_compact h.exact, Option.bind_some, decode?, h.decode]

theorem Reads.map {d : Decoder α} {v : Json} {x : α} (h : d.Reads v x) (f : α → β) :
    Reads (fun room v => (d room v).map f) v (f x) where
  exact := h.exact
  decode room := by
    rw [h.decode]
    split_ifs <;> rfl

/-! ### Leaves -/

theorem reads_of_leaf {d : Decoder α} {v : Json} {x : α} (hv : v.IsLeaf)
    (h : ∀ room, d room v = some x) :
    d.Reads v x :=
  ⟨hv.exact, fun room => by rw [h, if_pos (hv.depth_le room)]⟩

theorem Reads.decode_leaf {d : Decoder α} {v : Json} {x : α} (h : d.Reads v x) (hv : v.IsLeaf)
    (room : Nat) :
    d room v = some x := by
  rw [h.decode, if_pos (hv.depth_le room)]

theorem reads_string (s : String) : string.Reads (.str s) s :=
  reads_of_leaf (isLeaf_str s) fun _ => rfl

theorem integer_of_mem {low high n : Int} (hlow : low ≤ n) (hhigh : n < high) (room : Nat) :
    integer low high room (.integer n) = some n :=
  if_pos ⟨hlow, hhigh⟩

theorem reads_int64 (n : Int64) : int64.Reads (.integer n.toInt) n := by
  refine reads_of_leaf (isLeaf_integer _) fun room => ?_
  have hle := n.le_toInt
  have hlt := n.toInt_lt
  rw [int64, integer_of_mem (by omega) (by omega), Option.map_some, Int64.ofInt_toInt]

theorem reads_uint32 (n : UInt32) : uint32.Reads (.nat n.toNat) n := by
  refine reads_of_leaf (isLeaf_integer _) fun room => ?_
  have hlt := n.toNat_lt
  rw [uint32, nat, integer_of_mem (by omega) (by omega), Option.map_some, Int.toNat_natCast,
    UInt32.ofNat_toNat]

theorem reads_uint64 (n : UInt64) : uint64.Reads (.nat n.toNat) n := by
  refine reads_of_leaf (isLeaf_integer _) fun room => ?_
  have hlt := n.toNat_lt
  rw [uint64, nat, integer_of_mem (by omega) (by omega), Option.map_some, Int.toNat_natCast,
    UInt64.ofNat_toNat]

/-! ### Arrays -/

theorem mapM_of_reads {item : Decoder α} {write : α → Json} {xs : List α}
    (h : ∀ x ∈ xs, item.Reads (write x) x) (room : Nat) :
    (xs.map write).mapM (item room) =
      if ∀ v ∈ xs.map write, v.depth ≤ room then some xs else none := by
  induction xs with
  | nil => simp
  | cons x xs ih =>
    rw [List.map_cons, List.mapM_cons, (h x (by simp)).decode, ih fun y hy => h y (by simp [hy])]
    simp only [List.forall_mem_cons]
    by_cases hx : (write x).depth ≤ room
    · simp only [hx, true_and, if_true]
      split_ifs <;> rfl
    · simp only [hx, false_and, if_false]
      rfl

theorem reads_list {item : Decoder α} {write : α → Json} {xs : List α}
    (h : ∀ x ∈ xs, item.Reads (write x) x) :
    (list item).Reads (.array (xs.map write)) xs where
  exact := .array (List.forall_mem_map.2 fun x hx => (h x hx).exact)
  decode
    | 0 => (if_neg (not_depth_array_le_zero _)).symm
    | room + 1 => by
      rw [list, mapM_of_reads h]
      simp only [depth_array_le]

theorem reads_pair (p : String × String) : pair.Reads (.array [.str p.1, .str p.2]) p where
  exact := .array (by simpa using ⟨.text _, .text _⟩)
  decode
    | 0 => (if_neg (not_depth_array_le_zero _)).symm
    | room + 1 => (if_pos (by simp [(isLeaf_str _).depth_le])).symm

/-! ### Records -/

theorem lookup_obj (name : String) (members : List (String × Json)) :
    lookup name (members.map fun m => (some m.1, m.2)) = members.lookup name := by
  induction members with
  | nil => rfl
  | cons m members ih =>
    by_cases hm : m.1 = name
    · rw [lookup, List.map_cons, List.find?_cons_of_pos (by simpa using hm), List.lookup_cons]
      simp [hm]
    · rw [lookup, List.map_cons, List.find?_cons_of_neg (by simpa using hm), List.lookup_cons,
        beq_false_of_ne (Ne.symm hm)]
      exact ih

/-- In an object without repeated keys, the fields are found under their names. -/
theorem slots_obj (names : List String) {members : List (String × Json)}
    (h : (members.map Prod.fst).Nodup) :
    slots names (.obj members) = some (names.map fun name => members.lookup name) := by
  have hsome : (members.map fun m => (some m.1, m.2)).all (fun m => m.1.isSome) = true := by simp
  have hcount : ∀ name, (members.map fun m => (some m.1, m.2)).countP
      (fun m => m.1 == some name) ≤ 1 := by
    intro name
    rw [List.countP_map]
    -- the members with that name are the occurrences of the name among the keys
    have hone := List.nodup_iff_count_le_one.1 h name
    rw [List.count, List.countP_map] at hone
    exact hone
  rw [obj, slots, hsome, Bool.true_and, if_pos (by simpa using fun name _ => hcount name)]
  simp only [lookup_obj]

/-- A record is read field by field. -/
theorem reads_record {names : List String} {build : Nat → List (Option Json) → Option α}
    {members : List (String × Json)} {x : α} (hkeys : (members.map Prod.fst).Nodup)
    (hexact : ∀ m ∈ members, m.2.Exact)
    (hbuild : ∀ room, build room (names.map fun name => members.lookup name) =
      if ∀ m ∈ members, m.2.depth ≤ room then some x else none) :
    (record names build).Reads (.obj members) x where
  exact := .obj hexact
  decode
    | 0 => (if_neg (not_depth_obj_le_zero _)).symm
    | room + 1 => by
      rw [record, slots_obj names hkeys, Option.bind_some, hbuild]
      simp only [depth_obj_le]

/-- A record of leaves. -/
theorem reads_record_of_leaves {names : List String} {build : Nat → List (Option Json) → Option α}
    {members : List (String × Json)} {x : α} (hkeys : (members.map Prod.fst).Nodup)
    (hleaves : ∀ m ∈ members, m.2.IsLeaf)
    (hbuild : ∀ room, build room (names.map fun name => members.lookup name) = some x) :
    (record names build).Reads (.obj members) x := by
  refine reads_record hkeys (fun m hm => (hleaves m hm).exact) fun room => ?_
  rw [hbuild, if_pos fun m hm => (hleaves m hm).depth_le room]

/-- A record whose first field may be nested and whose others are leaves. -/
theorem reads_record_of_nested {names : List String} {build : Nat → List (Option Json) → Option α}
    {d : Decoder β} {key : String} {v : Json} {y : β} {f : β → α} {members : List (String × Json)}
    (h : d.Reads v y) (hkeys : (((key, v) :: members).map Prod.fst).Nodup)
    (hleaves : ∀ m ∈ members, m.2.IsLeaf)
    (hbuild : ∀ room, build room (names.map fun name => ((key, v) :: members).lookup name) =
      (d room v).map f) :
    (record names build).Reads (.obj ((key, v) :: members)) (f y) := by
  refine reads_record hkeys (List.forall_mem_cons.2 ⟨h.exact, fun m hm => (hleaves m hm).exact⟩)
    fun room => ?_
  have hdepth : ∀ m ∈ members, m.2.depth ≤ room := fun m hm => (hleaves m hm).depth_le room
  rw [hbuild, (h.map f).decode]
  simp only [List.forall_mem_cons, and_iff_left hdepth]

end Decoder

end DockerfileLint.Json
