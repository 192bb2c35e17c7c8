import DockerfileLint.Toml.Reader

/-!
# Tables that sections make

A document with each key once in its table, and with each table under one header, says what it seems
to say. The pairs after a header become the members of its table (`addPairs_flat`), a new header
becomes a new member of the document (`addSection_new`), and headers of one further key become the
members of a table, whether that table has a header of its own or is only implied by them
(`foldlM_tableSections`).
-/

namespace DockerfileLint.Toml

/-! ### Statements and sections -/

/-- The statements of pairs. -/
def pairStatements (pairs : List (Path × Value)) : List Statement :=
  pairs.map fun p => .pair p.1 p.2

/-- The statements of a section. -/
def Section.statements (s : Section) : List Statement := .header s.header :: pairStatements s.pairs

/-- The statements of the pairs before the first header and of the sections. -/
def statementsOf (pairs : List (Path × Value)) (secs : List Section) : List Statement :=
  pairStatements pairs ++ secs.flatMap Section.statements

theorem sections_statementsOf (pairs : List (Path × Value)) (secs : List Section) :
    sections (statementsOf pairs secs) = (pairs, secs) := by
  induction secs generalizing pairs with
  | nil =>
    induction pairs with
    | nil => rfl
    | cons p pairs ih =>
      show ((p.1, p.2) :: (sections (statementsOf pairs [])).1,
        (sections (statementsOf pairs [])).2) = _
      rw [ih]
  | cons s secs ihs =>
    induction pairs with
    | nil =>
      show ([], ⟨s.header, (sections (statementsOf s.pairs secs)).1⟩ ::
        (sections (statementsOf s.pairs secs)).2) = _
      rw [ihs]
    | cons p pairs ih =>
      show ((p.1, p.2) :: (sections (statementsOf pairs (s :: secs))).1,
        (sections (statementsOf pairs (s :: secs))).2) = _
      rw [ih]

/-! ### New members -/

/-- The keys of members, in order. -/
def keysOf {α : Type} (members : List (String × α)) : List String := members.map Prod.fst

/-- The first of several new keys is new, and the others still are after it. -/
theorem nodup_keysOf_cons {α β : Type} {members : List (String × α)} {m : String × β}
    {more : List (String × β)} (h : (keysOf members ++ keysOf (m :: more)).Nodup) (a : α) :
    m.1 ∉ keysOf members ∧ (keysOf (members ++ [(m.1, a)]) ++ keysOf more).Nodup := by
  refine ⟨fun hm => (List.nodup_append.1 h).2.2 _ hm _ (List.mem_cons_self ..) rfl, ?_⟩
  rw [keysOf, List.map_append, List.append_assoc]
  exact h

theorem lookup_eq_none_of_not_mem {α : Type} {members : List (String × α)} {key : String}
    (h : key ∉ keysOf members) :
    members.lookup key = none := by
  rw [List.lookup_eq_none_iff]
  intro m hm
  simp only [bne_iff_ne, ne_eq]
  rintro rfl
  exact h (List.mem_map_of_mem hm)

theorem lookup_concat_of_not_mem {α : Type} {members : List (String × α)} {key : String}
    (h : key ∉ keysOf members) (a : α) : (members ++ [(key, a)]).lookup key = some a := by
  rw [List.lookup_append, lookup_eq_none_of_not_mem h, Option.none_or, List.lookup_cons_self]

theorem lookup_eq_of_perm {α : Type} {xs ys : List (String × α)} (h : xs.Perm ys)
    (hnodup : (keysOf xs).Nodup) (key : String) : xs.lookup key = ys.lookup key := by
  induction h with
  | nil => rfl
  | cons x _ ih => rw [List.lookup_cons, List.lookup_cons, ih (List.nodup_cons.1 hnodup).2]
  | swap x y xs =>
    have hne : y.1 ≠ x.1 := fun hxy => (List.nodup_cons.1 hnodup).1 (hxy ▸ List.mem_cons_self ..)
    rw [List.lookup_cons, List.lookup_cons, List.lookup_cons, List.lookup_cons]
    cases hy : key == y.1 with
    | false => cases key == x.1 <;> rfl
    | true =>
      have hx : (key == x.1) = false := by rw [beq_eq_false_iff_ne, eq_of_beq hy]; exact hne
      rw [hx]
  | trans h _ ih ih' => exact (ih hnodup).trans (ih' ((h.map Prod.fst).nodup_iff.1 hnodup))

/-- Pairs of plain keys and values. -/
def flatPairs (t : Table) : List (Path × Value) := t.map fun m => (⟨[], m.1⟩, m.2)

theorem pairStatements_flatPairs_append (t more : Table) :
    pairStatements (flatPairs (t ++ more)) =
      pairStatements (flatPairs t) ++ pairStatements (flatPairs more) := by
  simp [pairStatements, flatPairs]

namespace Draft

/-- The members that plain pairs make. -/
def ofTable (t : Table) : Members := t.map fun m => (m.1, .value m.2)

theorem addPairs_flat {t : Table} {members : Members} (h : (keysOf members ++ keysOf t).Nodup) :
    addPairs (flatPairs t) members = some (members ++ ofTable t) := by
  induction t generalizing members with
  | nil => exact congrArg some (List.append_nil members).symm
  | cons m t ih =>
    obtain ⟨hnew, hkeys⟩ := nodup_keysOf_cons h (.value m.2)
    have hstep : addPair [] m.1 m.2 members = some (members ++ [(m.1, .value m.2)]) := by
      rw [addPair, lookup_eq_none_of_not_mem hnew]
      rfl
    have hrest := ih hkeys
    show (addPair [] m.1 m.2 members >>= fun members => addPairs (flatPairs t) members) = _
    rw [hstep]
    show addPairs (flatPairs t) (members ++ [(m.1, .value m.2)]) = _
    rw [hrest, List.append_assoc]
    rfl

theorem put_new {members : Members} {key : String} (h : key ∉ keysOf members) (d : Draft) :
    put members key d = members ++ [(key, d)] := by
  rw [put, lookup_eq_none_of_not_mem h]
  rfl

theorem put_last {members : Members} {key : String} (h : key ∉ keysOf members) (d d' : Draft) :
    put (members ++ [(key, d)]) key d' = members ++ [(key, d')] := by
  have hkeep : members.map (fun m => if m.1 = key then (key, d') else m) = members := by
    refine (List.map_congr_left fun m hm => if_neg ?_).trans (List.map_id members)
    rintro rfl
    exact h (List.mem_map_of_mem hm)
  rw [put, lookup_concat_of_not_mem h, Option.isSome_some, if_pos rfl, List.map_append, hkeep]
  simp

theorem openTable_flat {t : Table} (h : (keysOf t).Nodup) :
    openTable (flatPairs t) none = some (.table .header (ofTable t)) := by
  have hpairs : addPairs (flatPairs t) [] = some (ofTable t) := addPairs_flat h
  rw [openTable, hpairs]
  rfl

/-- A new header becomes a new member. -/
theorem addSection_new {members : Members} {key : String} {t : Table} (hkey : key ∉ keysOf members)
    (ht : (keysOf t).Nodup) :
    addSection members ⟨.table ⟨[], key⟩, flatPairs t⟩ =
      some (members ++ [(key, .table .header (ofTable t))]) := by
  show defineAt [] key (openTable (flatPairs t)) members = _
  rw [defineAt, lookup_eq_none_of_not_mem hkey, openTable_flat ht, Option.map_some, put_new hkey]

/-- One more section with a new header becomes one more member. -/
theorem foldlM_addSection_concat {secs : List Section} {root members : Members} {key : String}
    {t : Table} (h : secs.foldlM addSection root = some members) (hkey : key ∉ keysOf members)
    (ht : (keysOf t).Nodup) :
    (secs ++ [Section.mk (.table ⟨[], key⟩) (flatPairs t)]).foldlM addSection root =
      some (members ++ [(key, .table .header (ofTable t))]) := by
  rw [List.foldlM_append, h]
  show (addSection members _ >>= pure) = _
  rw [addSection_new hkey ht]
  rfl

/-- A new header of two keys becomes a new member of the last table. -/
theorem addSection_inner {members inner : Members} {parent key : String} (origin : Origin)
    {t : Table} (hparent : parent ∉ keysOf members) (hkey : key ∉ keysOf inner)
    (ht : (keysOf t).Nodup) :
    addSection (members ++ [(parent, .table origin inner)]) ⟨.table ⟨[parent], key⟩, flatPairs t⟩ =
      some
        (members ++ [(parent, .table origin (inner ++ [(key, .table .header (ofTable t))]))]) := by
  show defineAt [parent] key (openTable (flatPairs t)) _ = _
  rw [defineAt, lookup_concat_of_not_mem hparent]
  dsimp only
  rw [defineAt, lookup_eq_none_of_not_mem hkey, openTable_flat ht, Option.map_some, Option.map_some,
    put_new hkey, put_last hparent]

/-- The first header of two keys implies the table around it. -/
theorem addSection_implied {members : Members} {parent key : String} {t : Table}
    (hparent : parent ∉ keysOf members) (ht : (keysOf t).Nodup) :
    addSection members ⟨.table ⟨[parent], key⟩, flatPairs t⟩ =
      some (members ++ [(parent, .table .implied [(key, .table .header (ofTable t))])]) := by
  show defineAt [parent] key (openTable (flatPairs t)) _ = _
  rw [defineAt, lookup_eq_none_of_not_mem hparent]
  dsimp only
  rw [defineAt, List.lookup_nil, openTable_flat ht, Option.map_some, Option.map_some]
  rfl

/-- Sections of tables inside a table. -/
def innerSections (parent : String) (tables : List (String × Table)) : List Section :=
  tables.map fun e => ⟨.table ⟨[parent], e.1⟩, flatPairs e.2⟩

/-- The members that tables inside a table make. -/
def ofTables (tables : List (String × Table)) : Members :=
  tables.map fun e => (e.1, .table .header (ofTable e.2))

/-- New headers of two keys become members of the last table. -/
theorem foldlM_addSection_inner {members inner : Members} {parent : String} {origin : Origin}
    {tables : List (String × Table)} (hparent : parent ∉ keysOf members)
    (hkeys : (keysOf inner ++ keysOf tables).Nodup) (ht : ∀ e ∈ tables, (keysOf e.2).Nodup) :
    (innerSections parent tables).foldlM addSection (members ++ [(parent, .table origin inner)]) =
      some (members ++ [(parent, .table origin (inner ++ ofTables tables))]) := by
  induction tables generalizing inner with
  | nil => rw [show ofTables [] = [] from rfl, List.append_nil]; rfl
  | cons e tables ih =>
    obtain ⟨hnew, hkeys⟩ := nodup_keysOf_cons hkeys (.table .header (ofTable e.2))
    have hstep := addSection_inner origin hparent hnew (ht e (List.mem_cons_self ..))
    have hrest := ih hkeys fun e' he' => ht e' (List.mem_cons_of_mem _ he')
    show (addSection _ _ >>= fun members =>
      (innerSections parent tables).foldlM addSection members) = _
    rw [hstep]
    show (innerSections parent tables).foldlM addSection _ = _
    rw [hrest, List.append_assoc]
    rfl

/-- Sections of tables inside a table, which may have a header of its own in front. -/
def tableSections (withHeader : Bool) (parent : String) (tables : List (String × Table)) :
    List Section :=
  (if withHeader then [⟨.table ⟨[], parent⟩, []⟩] else []) ++ innerSections parent tables

/-- Tables inside a table become its members; where there is no header at all there is no table. -/
theorem foldlM_tableSections {members : Members} {parent : String} (withHeader : Bool)
    {tables : List (String × Table)} (hparent : parent ∉ keysOf members)
    (hkeys : (keysOf tables).Nodup) (ht : ∀ e ∈ tables, (keysOf e.2).Nodup) :
    (tables = [] ∧ (tableSections withHeader parent tables).foldlM addSection members =
      some members) ∨
    ∃ origin, (tableSections withHeader parent tables).foldlM addSection members =
      some (members ++ [(parent, .table origin (ofTables tables))]) := by
  cases withHeader with
  | true =>
    have hempty : (keysOf ([] : Table)).Nodup := List.nodup_nil
    refine .inr ⟨.header, ?_⟩
    show (addSection members ⟨.table ⟨[], parent⟩, flatPairs []⟩ >>=
      (innerSections parent tables).foldlM addSection) = _
    rw [addSection_new hparent hempty]
    exact @foldlM_addSection_inner members [] parent .header tables hparent hkeys ht
  | false =>
    cases tables with
    | nil => exact .inl ⟨rfl, rfl⟩
    | cons e tables =>
      -- the first header implies the table, and the others find it there
      refine .inr ⟨.implied, ?_⟩
      show (addSection members _ >>= (innerSections parent tables).foldlM addSection) = _
      rw [addSection_implied hparent (ht e (List.mem_cons_self ..))]
      exact foldlM_addSection_inner hparent hkeys fun e' he' => ht e' (List.mem_cons_of_mem _ he')

/-! ### Finished tables -/

theorem finishMembers_append (members more : Members) :
    finishMembers (members ++ more) = finishMembers members ++ finishMembers more := by
  induction members with
  | nil => rfl
  | cons m members ih => exact congrArg ((m.1, finish m.2) :: ·) ih

theorem finishMembers_ofTable (t : Table) : finishMembers (ofTable t) = t := by
  induction t with
  | nil => rfl
  | cons m t ih => exact congrArg (m :: ·) ih

theorem finishMembers_ofTables (tables : List (String × Table)) :
    finishMembers (ofTables tables) = tables.map fun e => (e.1, .table e.2) := by
  induction tables with
  | nil => rfl
  | cons e tables ih =>
    show (e.1, .table (finishMembers (ofTable e.2))) :: finishMembers (ofTables tables) = _
    rw [finishMembers_ofTable, ih]
    rfl

end Draft

theorem tableOfSections?_eq_some {pairs : List (Path × Value)} {secs : List Section}
    {root members : Draft.Members} (hpairs : Draft.addPairs pairs [] = some root)
    (hsecs : secs.foldlM Draft.addSection root = some members) :
    tableOfSections? pairs secs = some (Draft.finishMembers members) := by
  rw [tableOfSections?, hpairs]
  show (secs.foldlM Draft.addSection root >>= fun root => pure (Draft.finishMembers root)) = _
  rw [hsecs]
  rfl

end DockerfileLint.Toml
