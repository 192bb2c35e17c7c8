import DockerfileLint.Proofs.Toml.Sections
import Mathlib.Tactic.SplitIfs

/-!
# Each key once

A document may fill a table from many places, but no key of a table is set twice. So in a table that
is read each key stands once, and the same holds of the tables inside it (`distinct_of_parse?`). The
invariant is kept by the tables in the making (`Draft.DistinctMembers`): a member is added where its
key is new, and otherwise a table in its place is replaced by one that keeps the invariant itself.
-/

namespace DockerfileLint.Toml

section Lookup

variable {α : Type} {members : List (String × α)} {key : String} {a : α}

theorem mem_of_lookup (h : members.lookup key = some a) : (key, a) ∈ members := by
  obtain ⟨before, after, rfl, -⟩ := List.lookup_eq_some_iff.1 h
  simp

theorem not_mem_keysOf_of_lookup (h : members.lookup key = none) : key ∉ keysOf members := by
  intro hmem
  obtain ⟨m, hm, rfl⟩ := List.mem_map.1 hmem
  simpa using List.lookup_eq_none_iff.1 h m hm

/-- Where each key stands once, a member is what is found under its key. -/
theorem lookup_eq_some_iff_mem (hkeys : (keysOf members).Nodup) :
    members.lookup key = some a ↔ (key, a) ∈ members := by
  refine ⟨mem_of_lookup, fun h => ?_⟩
  obtain ⟨before, after, rfl⟩ := List.append_of_mem h
  have hnew : key ∉ keysOf before := by
    intro hmem
    rw [keysOf, List.map_append] at hkeys
    exact (List.nodup_append.1 hkeys).2.2 key hmem key (by simp) rfl
  rw [List.lookup_append, lookup_eq_none_of_not_mem hnew, Option.none_or, List.lookup_cons_self]

end Lookup

/-- Each key of a table stands there once, also in the tables inside. -/
inductive Value.Distinct : Value → Prop
  | string (s : String) : Distinct (.string s)
  | integer (n : Int) : Distinct (.integer n)
  | float (spelling : String) : Distinct (.float spelling)
  | boolean (b : Bool) : Distinct (.boolean b)
  | moment (spelling : String) : Distinct (.moment spelling)
  | array {items : List Value} (hitems : ∀ v ∈ items, Distinct v) : Distinct (.array items)
  | table {members : List (String × Value)} (hkeys : (keysOf members).Nodup)
      (hmembers : ∀ m ∈ members, Distinct m.2) :
      Distinct (.table members)

namespace Draft

/-- Each key of a table in the making stands there once, also in the tables inside. -/
inductive Distinct : Draft → Prop
  | value {v : Value} (h : v.Distinct) : Distinct (.value v)
  | table {origin : Origin} {members : Members} (hkeys : (keysOf members).Nodup)
      (hmembers : ∀ m ∈ members, Distinct m.2) : Distinct (.table origin members)
  | tables {elements : List Members} (hkeys : ∀ members ∈ elements, (keysOf members).Nodup)
      (hmembers : ∀ members ∈ elements, ∀ m ∈ members, Distinct m.2) : Distinct (.tables elements)

/-- Members of a table in the making with each key once. -/
structure DistinctMembers (members : Members) : Prop where
  keys : (keysOf members).Nodup
  inner : ∀ m ∈ members, m.2.Distinct

theorem distinctMembers_nil : DistinctMembers [] := ⟨List.nodup_nil, by simp⟩

theorem Distinct.members {origin : Origin} {members : Members}
    (h : Distinct (.table origin members)) :
    DistinctMembers members := by
  cases h with
  | table hkeys hmembers => exact ⟨hkeys, hmembers⟩

theorem Distinct.element {elements : List Members} (h : Distinct (.tables elements))
    {members : Members} (hmem : members ∈ elements) : DistinctMembers members := by
  cases h with
  | tables hkeys hmembers => exact ⟨hkeys members hmem, hmembers members hmem⟩

theorem DistinctMembers.table {members : Members} (h : DistinctMembers members) (origin : Origin) :
    Distinct (.table origin members) :=
  .table h.keys h.inner

theorem distinct_tables {elements : List Members}
    (h : ∀ members ∈ elements, DistinctMembers members) :
    Distinct (.tables elements) :=
  .tables (fun members hmem => (h members hmem).keys) fun members hmem => (h members hmem).inner

/-! ### Adding members -/

section Members

variable {members : Members} {key : String} {d : Draft}

theorem DistinctMembers.of_lookup (h : DistinctMembers members) (hd : members.lookup key = some d) :
    d.Distinct :=
  h.inner _ (mem_of_lookup hd)

theorem DistinctMembers.concat (h : DistinctMembers members) (hkey : members.lookup key = none)
    (hd : d.Distinct) :
    DistinctMembers (members ++ [(key, d)]) where
  keys := by
    have hnew := not_mem_keysOf_of_lookup hkey
    simpa [keysOf, List.nodup_append]
      using ⟨h.keys, fun a b hb hab => hnew (hab ▸ List.mem_map_of_mem hb)⟩
  inner := by
    intro m hm
    rcases List.mem_append.1 hm with hm | hm
    · exact h.inner m hm
    · rw [List.mem_singleton.1 hm]
      exact hd

theorem DistinctMembers.put (h : DistinctMembers members) (key : String) (hd : d.Distinct) :
    DistinctMembers (put members key d) := by
  unfold Draft.put
  split
  · constructor
    · -- the key stays where it is
      have hkeys : keysOf (members.map fun m => if m.1 = key then (key, d) else m) =
          keysOf members := by
        rw [keysOf, List.map_map]
        refine List.map_congr_left fun m _ => ?_
        by_cases hm : m.1 = key <;> simp [hm]
      rw [hkeys]
      exact h.keys
    · intro m hm
      obtain ⟨m', hm', rfl⟩ := List.mem_map.1 hm
      split_ifs
      · exact hd
      · exact h.inner m' hm'
  · rename_i hnone
    exact h.concat (Option.not_isSome_iff_eq_none.1 hnone) hd

/-- A new last element in an array of tables. -/
theorem Distinct.replaceLast {elements : List Members} (h : Distinct (.tables elements))
    {last : Members} (hlast : DistinctMembers last) :
    Distinct (.tables (elements.dropLast ++ [last])) := by
  refine distinct_tables fun members hmem => ?_
  rcases List.mem_append.1 hmem with hmem | hmem
  · exact h.element ((List.dropLast_sublist _).subset hmem)
  · rw [List.mem_singleton.1 hmem]
    exact hlast

end Members

theorem DistinctMembers.addPair {parents : List String} {key : String} {v : Value}
    {members members' : Members} (hv : v.Distinct) (h : DistinctMembers members)
    (hadd : addPair parents key v members = some members') :
    DistinctMembers members' := by
  induction parents generalizing members members' with
  | nil =>
    rw [Draft.addPair] at hadd
    split_ifs at hadd with hkey
    cases hadd
    exact h.concat (Option.not_isSome_iff_eq_none.1 hkey) (.value hv)
  | cons parent parents ih =>
    rw [Draft.addPair] at hadd
    split at hadd
    · rename_i hnone
      obtain ⟨inner, hinner, rfl⟩ := Option.map_eq_some_iff.1 hadd
      exact h.concat hnone ((ih distinctMembers_nil hinner).table _)
    · rename_i hsome
      obtain ⟨inner', hinner, rfl⟩ := Option.map_eq_some_iff.1 hadd
      exact h.put _ ((ih (h.of_lookup hsome).members hinner).table _)
    · rename_i hsome
      split_ifs at hadd
      obtain ⟨inner', hinner, rfl⟩ := Option.map_eq_some_iff.1 hadd
      exact h.put _ ((ih (h.of_lookup hsome).members hinner).table _)
    · rename_i hsome
      split_ifs at hadd
      split at hadd
      · rename_i hlast
        obtain ⟨last', hinner, rfl⟩ := Option.map_eq_some_iff.1 hadd
        have helements := h.of_lookup hsome
        exact h.put _ (helements.replaceLast
          (ih (helements.element (List.mem_of_getLast? hlast)) hinner))
      · cases hadd
    · cases hadd

theorem DistinctMembers.addPairs {pairs : List (Path × Value)}
    (hpairs : ∀ pair ∈ pairs, pair.2.Distinct) {members members' : Members}
    (h : DistinctMembers members) (hadd : addPairs pairs members = some members') :
    DistinctMembers members' := by
  induction pairs generalizing members with
  | nil =>
    cases hadd
    exact h
  | cons pair pairs ih =>
    obtain ⟨hpair, hpairs⟩ := List.forall_mem_cons.1 hpairs
    obtain ⟨next, hnext, hrest⟩ := Option.bind_eq_some_iff.1 hadd
    exact ih hpairs (h.addPair hpair hnext) hrest

theorem DistinctMembers.defineAt {parents : List String} {key : String}
    {define : Option Draft → Option Draft}
    (hdefine : ∀ entry d, (∀ old ∈ entry, old.Distinct) → define entry = some d → d.Distinct)
    {members members' : Members} (h : DistinctMembers members)
    (hadd : defineAt parents key define members = some members') : DistinctMembers members' := by
  induction parents generalizing members members' with
  | nil =>
    rw [Draft.defineAt] at hadd
    obtain ⟨d, hd, rfl⟩ := Option.map_eq_some_iff.1 hadd
    exact h.put _ (hdefine _ d (fun old hold => h.of_lookup hold) hd)
  | cons parent parents ih =>
    rw [Draft.defineAt] at hadd
    split at hadd
    · rename_i hnone
      obtain ⟨inner, hinner, rfl⟩ := Option.map_eq_some_iff.1 hadd
      exact h.concat hnone ((ih distinctMembers_nil hinner).table _)
    · rename_i hsome
      obtain ⟨inner', hinner, rfl⟩ := Option.map_eq_some_iff.1 hadd
      exact h.put _ ((ih (h.of_lookup hsome).members hinner).table _)
    · rename_i hsome
      split at hadd
      · rename_i hlast
        obtain ⟨last', hinner, rfl⟩ := Option.map_eq_some_iff.1 hadd
        have helements := h.of_lookup hsome
        exact h.put _ (helements.replaceLast
          (ih (helements.element (List.mem_of_getLast? hlast)) hinner))
      · cases hadd
    · cases hadd

/-! ### Sections -/

section Sections

variable {pairs : List (Path × Value)} (hpairs : ∀ pair ∈ pairs, pair.2.Distinct)

include hpairs

theorem distinct_openTable (entry : Option Draft) (d : Draft) (hentry : ∀ old ∈ entry, old.Distinct)
    (h : openTable pairs entry = some d) : d.Distinct := by
  unfold openTable at h
  split at h
  · obtain ⟨members, hmembers, rfl⟩ := Option.map_eq_some_iff.1 h
    exact (distinctMembers_nil.addPairs hpairs hmembers).table _
  · obtain ⟨members, hmembers, rfl⟩ := Option.map_eq_some_iff.1 h
    exact ((hentry _ rfl).members.addPairs hpairs hmembers).table _
  · cases h

theorem distinct_openTables (entry : Option Draft) (d : Draft)
    (hentry : ∀ old ∈ entry, old.Distinct) (h : openTables pairs entry = some d) : d.Distinct := by
  unfold openTables at h
  split at h
  · obtain ⟨element, helement, rfl⟩ := Option.map_eq_some_iff.1 h
    refine distinct_tables fun members hmem => ?_
    rw [List.mem_singleton.1 hmem]
    exact distinctMembers_nil.addPairs hpairs helement
  · obtain ⟨element, helement, rfl⟩ := Option.map_eq_some_iff.1 h
    refine distinct_tables fun members hmem => ?_
    rcases List.mem_append.1 hmem with hmem | hmem
    · exact (hentry _ rfl).element hmem
    · rw [List.mem_singleton.1 hmem]
      exact distinctMembers_nil.addPairs hpairs helement
  · cases h

end Sections

theorem DistinctMembers.addSection {s : Section} (hpairs : ∀ pair ∈ s.pairs, pair.2.Distinct)
    {members members' : Members} (h : DistinctMembers members)
    (hadd : addSection members s = some members') :
    DistinctMembers members' := by
  unfold Draft.addSection at hadd
  split at hadd
  · exact h.defineAt (distinct_openTable hpairs) hadd
  · exact h.defineAt (distinct_openTables hpairs) hadd

theorem DistinctMembers.addSections {secs : List Section}
    (hsecs : ∀ s ∈ secs, ∀ pair ∈ s.pairs, pair.2.Distinct) {members members' : Members}
    (h : DistinctMembers members) (hadd : secs.foldlM Draft.addSection members = some members') :
    DistinctMembers members' := by
  induction secs generalizing members with
  | nil =>
    cases hadd
    exact h
  | cons s secs ih =>
    obtain ⟨hs, hsecs⟩ := List.forall_mem_cons.1 hsecs
    obtain ⟨next, hnext, hrest⟩ := Option.bind_eq_some_iff.1 hadd
    exact ih hsecs (h.addSection hs hnext) hrest

/-! ### Finished tables -/

theorem finishMembers_eq_map (members : Members) :
    finishMembers members = members.map fun m => (m.1, finish m.2) := by
  induction members with
  | nil => rfl
  | cons m members ih => exact congrArg ((m.1, finish m.2) :: ·) ih

theorem finishElements_eq_map (elements : List Members) :
    finishElements elements = elements.map fun members => .table (finishMembers members) := by
  induction elements with
  | nil => rfl
  | cons members elements ih => exact congrArg (.table (finishMembers members) :: ·) ih

theorem distinct_table_finishMembers {members : Members} (hkeys : (keysOf members).Nodup)
    (hmembers : ∀ m ∈ members, m.2.finish.Distinct) :
    (Value.table (finishMembers members)).Distinct := by
  rw [finishMembers_eq_map]
  refine .table ?_ ?_
  · rw [keysOf, List.map_map]
    exact hkeys
  · intro m hm
    obtain ⟨m', hm', rfl⟩ := List.mem_map.1 hm
    exact hmembers m' hm'

theorem Distinct.finish {d : Draft} (h : d.Distinct) : d.finish.Distinct := by
  induction h with
  | value h => exact h
  | table hkeys _ ih => exact distinct_table_finishMembers hkeys ih
  | tables hkeys _ ih =>
    rw [Draft.finish, finishElements_eq_map]
    refine .array fun v hv => ?_
    obtain ⟨members, hmem, rfl⟩ := List.mem_map.1 hv
    exact distinct_table_finishMembers (hkeys members hmem) (ih members hmem)

theorem DistinctMembers.finish {members : Members} (h : DistinctMembers members) :
    (Value.table (finishMembers members)).Distinct :=
  distinct_table_finishMembers h.keys fun m hm => (h.inner m hm).finish

end Draft

/-! ### The reader -/

/-- What the reader gives has each key once. -/
def ReadsDistinct (item : Reader Value) : Prop := ∀ cs v rest, item cs = some (v, rest) → v.Distinct

theorem readsDistinct_scalar : ReadsDistinct scalar := by
  intro cs v rest h
  unfold scalar at h
  dsimp only at h
  split at h
  · cases h
    exact .boolean _
  split at h
  · cases h
    exact .boolean _
  split at h
  · split at h
    · cases h
      exact .integer _
    · cases h
  split at h
  · cases h
    exact .float _
  split at h
  · cases h
    exact .moment _
  · cases h

theorem distinct_of_items {item : Reader Value} (hitem : ReadsDistinct item) {cs : List Char}
    {vs : List Value} {rest : List Char} (h : items item cs = some (vs, rest)) :
    ∀ v ∈ vs, v.Distinct := by
  fun_induction items item cs generalizing vs rest with
  | case1 => cases h
  | case2 cs v more hv after hmore =>
    cases h
    simpa using hitem _ _ _ hv
  | case3 cs v more hv next hmore after hnext =>
    cases h
    simpa using hitem _ _ _ hv
  | case4 cs v more hv tail hmore next hopen htail hshorter ih =>
    obtain ⟨⟨vs', rest'⟩, hvs, hpush⟩ := Option.map_eq_some_iff.1 h
    cases hpush
    exact List.forall_mem_cons.2 ⟨hitem _ _ _ hv, ih hvs⟩
  | case5 => cases h
  | case6 => cases h
  | case7 => cases h

theorem distinct_of_keyValue {item : Reader Value} (hitem : ReadsDistinct item) {cs : List Char}
    {pair : Path × Value} {rest : List Char} (h : keyValue item cs = some (pair, rest)) :
    pair.2.Distinct := by
  unfold keyValue at h
  split at h
  · split at h
    · rename_i hv
      cases h
      exact hitem _ _ _ hv
    · cases h
  · cases h

theorem distinct_of_inlinePairs {item : Reader Value} (hitem : ReadsDistinct item) {cs : List Char}
    {pairs : List (Path × Value)} {rest : List Char}
    (h : inlinePairs item cs = some (pairs, rest)) :
    ∀ pair ∈ pairs, pair.2.Distinct := by
  fun_induction inlinePairs item cs generalizing pairs rest with
  | case1 cs pair after hpair =>
    cases h
    simpa using distinct_of_keyValue hitem hpair
  | case2 cs pair more hpair hshorter ih =>
    obtain ⟨⟨pairs', rest'⟩, hpairs, hpush⟩ := Option.map_eq_some_iff.1 h
    cases hpush
    exact List.forall_mem_cons.2 ⟨distinct_of_keyValue hitem hpair, ih hpairs⟩
  | case3 => cases h
  | case4 => cases h

theorem distinct_of_tableOfPairs? {pairs : List (Path × Value)}
    (hpairs : ∀ pair ∈ pairs, pair.2.Distinct) {t : Table} (h : tableOfPairs? pairs = some t) :
    (Value.table t).Distinct := by
  obtain ⟨members, hmembers, rfl⟩ := Option.map_eq_some_iff.1 h
  exact (Draft.distinctMembers_nil.addPairs hpairs hmembers).finish

theorem readsDistinct_value (room : Nat) : ReadsDistinct (value room) := by
  induction room using Nat.strongRecOn with
  | ind room ih =>
    intro cs v rest h
    unfold value at h
    split at h
    · obtain ⟨text, -, htext⟩ := Option.map_eq_some_iff.1 h
      cases htext
      exact .string _
    · obtain ⟨text, -, htext⟩ := Option.map_eq_some_iff.1 h
      cases htext
      exact .string _
    · split at h
      · rename_i room
        have hitem := ih room (Nat.lt_succ_self room)
        split at h
        · cases h
          exact .array (by simp)
        · obtain ⟨⟨vs, after⟩, hvs, hvalue⟩ := Option.map_eq_some_iff.1 h
          cases hvalue
          exact .array (distinct_of_items hitem hvs)
        · cases h
      · cases h
    · split at h
      · rename_i room
        have hitem := ih room (Nat.lt_succ_self room)
        split at h
        · cases h
          exact .table List.nodup_nil (by simp)
        · split at h
          · rename_i hpairs
            obtain ⟨t, ht, hvalue⟩ := Option.map_eq_some_iff.1 h
            cases hvalue
            exact distinct_of_tableOfPairs? (distinct_of_inlinePairs hitem hpairs) ht
          · cases h
      · cases h
    · exact readsDistinct_scalar _ _ _ h

/-! ### The document -/

/-- A value that a statement sets has each key once. -/
def Statement.Distinct : Statement → Prop
  | .pair _ v => v.Distinct
  | .header _ => True

theorem distinct_of_statement {cs : List Char} {s : Statement} {rest : List Char}
    (h : statement cs = some (s, rest)) :
    s.Distinct := by
  unfold statement at h
  split at h
  · obtain ⟨found, -, hfound⟩ := Option.map_eq_some_iff.1 h
    cases hfound
    trivial
  · obtain ⟨⟨pair, after⟩, hpair, hfound⟩ := Option.map_eq_some_iff.1 h
    cases hfound
    exact distinct_of_keyValue (readsDistinct_value _) hpair

theorem distinct_of_line {cs : List Char} {said : Option Statement} {rest : List Char}
    (h : line cs = some (said, rest)) : ∀ s ∈ said, s.Distinct := by
  unfold line at h
  split at h
  · cases h
    simp
  · split at h
    · rename_i hs
      obtain ⟨after, -, hfound⟩ := Option.map_eq_some_iff.1 h
      cases hfound
      simpa using distinct_of_statement hs
    · cases h

theorem distinct_of_statements {cs : List Char} {ss : List Statement}
    (h : statements cs = some ss) :
    ∀ s ∈ ss, s.Distinct := by
  fun_induction statements cs generalizing ss with
  | case1 =>
    cases h
    simp
  | case2 c cs said rest hline hshorter ih =>
    obtain ⟨more, hmore, rfl⟩ := Option.map_eq_some_iff.1 h
    intro s hs
    rcases List.mem_append.1 hs with hs | hs
    · exact distinct_of_line hline s (Option.mem_toList.1 hs)
    · exact ih hmore s hs
  | case3 => cases h
  | case4 => cases h

/-- The values of the pairs before the first header, and of those in the sections, are those of the
statements. -/
theorem distinct_of_sections {ss : List Statement} (h : ∀ s ∈ ss, s.Distinct) :
    (∀ pair ∈ (sections ss).1, pair.2.Distinct) ∧
    ∀ sec ∈ (sections ss).2, ∀ pair ∈ sec.pairs, pair.2.Distinct := by
  induction ss with
  | nil => simp [sections]
  | cons s ss ih =>
    obtain ⟨hs, hss⟩ := List.forall_mem_cons.1 h
    obtain ⟨hpairs, hsecs⟩ := ih hss
    cases s with
    | pair p v => exact ⟨List.forall_mem_cons.2 ⟨hs, hpairs⟩, hsecs⟩
    | header hd => exact ⟨by simp [sections], List.forall_mem_cons.2 ⟨hpairs, hsecs⟩⟩

/-- In a table that is read each key stands once, also in the tables inside. -/
theorem distinct_of_parse? {text : String} {t : Table} (h : parse? text = some t) :
    (Value.table t).Distinct := by
  obtain ⟨ss, hss, h⟩ := Option.bind_eq_some_iff.1 h
  obtain ⟨root, hroot, h⟩ := Option.bind_eq_some_iff.1 h
  obtain ⟨members, hmembers, h⟩ := Option.bind_eq_some_iff.1 h
  cases h
  obtain ⟨hpairs, hsecs⟩ := distinct_of_sections (distinct_of_statements hss)
  exact ((Draft.distinctMembers_nil.addPairs hpairs hroot).addSections hsecs hmembers).finish

end DockerfileLint.Toml
