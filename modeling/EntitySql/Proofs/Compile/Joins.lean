import EntitySql.Proofs.Compile.Plan
import EntitySql.Proofs.Fresh
import EntitySql.Proofs.Relation.Resolution
import Mathlib.Data.List.Nodup
import Mathlib.Data.List.Pairwise

/-! # Joins of a compiled query

    Each entry of the relation map asks for joins of its own: one, or two if it
    goes through a junction. They are added in order, and a join whose name is
    taken by then is left out.

    Names are *apart* if no two entries ask for a join under the same name. Then
    all joins are in the query; else some are missing, and what is meant for
    their tables is read from another one. Names need not be apart, since an
    underscore in the name of a relation may stand where the alias of another
    path has that of a dot or of a junction.
-/

namespace EntitySql

/-! ## Adding joins -/

/-- The names that joins are visible under. -/
def Join.names (js : List Join) : List String := js.map Join.visibleName

theorem Join.names_append (js ks : List Join) : names (js ++ ks) = names js ++ names ks :=
  List.map_append

theorem Join.names_single (j : Join) : names [j] = [j.visibleName] := rfl

namespace Plan

theorem addJoin_eq_addFresh : addJoin = addFresh Join.visibleName := by
  funext js j
  have htaken : (js.any fun k => k.visibleName == j.visibleName) = true ↔
      j.visibleName ∈ js.map Join.visibleName := by
    rw [List.any_eq_true, List.mem_map]
    exact exists_congr fun k => and_congr_right fun _ => beq_iff_eq
  exact if_congr htaken rfl rfl

theorem addJoin_of_mem {js : List Join} {j : Join} (h : j.visibleName ∈ Join.names js) :
    addJoin js j = js := by
  rw [addJoin_eq_addFresh]
  exact addFresh_of_mem Join.visibleName h

theorem addJoin_of_not_mem {js : List Join} {j : Join} (h : j.visibleName ∉ Join.names js) :
    addJoin js j = js ++ [j] := by
  rw [addJoin_eq_addFresh]
  exact addFresh_of_not_mem Join.visibleName h

/-- After a join has been added, or left out, its name is visible. -/
theorem mem_names_addJoin {n : String} {js : List Join} {j : Join} :
    n ∈ Join.names (addJoin js j) ↔ n ∈ Join.names js ∨ n = j.visibleName := by
  rw [addJoin_eq_addFresh]
  exact mem_map_addFresh Join.visibleName

/-- No two joins are visible under one name, if none were. -/
theorem nodup_names_foldl_addJoin {acc : List Join} (js : List Join)
    (h : (Join.names acc).Nodup) : (Join.names (js.foldl addJoin acc)).Nodup := by
  rw [addJoin_eq_addFresh]
  exact nodup_map_foldl_addFresh Join.visibleName js h

/-- The names of all joins are visible in the end, also of those that have been left out. -/
theorem mem_names_foldl_addJoin {n : String} {acc js : List Join} :
    n ∈ Join.names (js.foldl addJoin acc) ↔ n ∈ Join.names acc ∨ n ∈ Join.names js := by
  rw [addJoin_eq_addFresh]
  exact mem_map_foldl_addFresh Join.visibleName

/-- Joins are only left out, never changed or moved. -/
theorem foldl_addJoin_sublist (acc js : List Join) :
    (js.foldl addJoin acc).Sublist (acc ++ js) := by
  rw [addJoin_eq_addFresh]
  exact foldl_addFresh_sublist Join.visibleName acc js

/-- If no two joins have one name, none is left out. -/
theorem foldl_addJoin_of_nodup {acc js : List Join} (h : (Join.names (acc ++ js)).Nodup) :
    js.foldl addJoin acc = acc ++ js := by
  rw [addJoin_eq_addFresh]
  exact foldl_addFresh_of_nodup Join.visibleName h

end Plan

/-! ## The joins of an entry -/

/-- A left join of a table that is visible under a name, on a comparison of two keys. -/
structure Join.Links (j : Join) (table name left right : String) : Prop where
  table : j.table = table
  visibleName : j.visibleName = name
  direction : j.direction = .left
  unification : j.unification = "ON"
  conditions : j.conditions = ⟨.and, [.predicate (.ofKeys left "=" right)]⟩

theorem links_leftJoin (table name left right : String) :
    (leftJoin table name left right).Links table name left right := by
  have hname : (leftJoin table name left right).visibleName = name := by
    rw [leftJoin, Join.visibleName_onKeys]
    show (aliasUnlessSame name table).getD table = name
    unfold aliasUnlessSame
    -- an alias that is the table's name is left out, which is the name it is seen under all the
    -- same
    by_cases h : name = table
    · rw [if_pos h]
      exact h.symm
    · rw [if_neg h]
      rfl
  exact ⟨rfl, hname, rfl, rfl, rfl⟩

namespace RelationEntry

/-- The name of the junction's table in the statement. -/
def pivotName (e : RelationEntry) : String := e.aliasName ++ "_pivot"

/-- The name of the owner's table: the alias of the parent path, or the root table. -/
def ownerName (root : String) (e : RelationEntry) : String :=
  (e.parent?.map RelationPath.aliasOf).getD root

/-- The names that the entry asks for joins under. -/
def joinNames (e : RelationEntry) : List String :=
  match e.relationship.junction with
  | none => [e.aliasName]
  | some _ => [e.pivotName, e.aliasName]

/-- The joins lead from the table of the entry's owner to that of the related entity, each on the
    keys of the relationship. -/
inductive JoinedBy (inspector : Inspector) (root : String) (e : RelationEntry) :
    List Join → Prop where
  /-- The related table is joined to that of the owner -/
  | direct {table : String} {j : Join} (hjunction : e.relationship.junction = none)
      (htable : inspector.storageName e.relationship.related = .ok table)
      (hjoin : j.Links table e.aliasName
        (qualified (e.ownerName root) e.relationship.ownerKey)
        (qualified e.aliasName e.relationship.relatedKey)) : JoinedBy inspector root e [j]
  /-- The junction is joined to the table of the owner, and the related table to the junction -/
  | through {junction : Junction} {pivotTable table : String} {pivot j : Join}
      (hjunction : e.relationship.junction = some junction)
      (hpivotTable : junctionTable inspector junction.target = .ok pivotTable)
      (htable : inspector.storageName e.relationship.related = .ok table)
      (hpivot : pivot.Links pivotTable e.pivotName
        (qualified (e.ownerName root) e.relationship.ownerKey)
        (qualified e.pivotName junction.ownerKey))
      (hjoin : j.Links table e.aliasName
        (qualified e.pivotName junction.relatedKey)
        (qualified e.aliasName e.relationship.relatedKey)) : JoinedBy inspector root e [pivot, j]

variable {inspector : Inspector} {root : String} {e : RelationEntry} {js : List Join}

theorem JoinedBy.names (h : e.JoinedBy inspector root js) : Join.names js = e.joinNames := by
  unfold joinNames
  cases h with
  | direct hjunction _ hjoin => simp [hjunction, Join.names, hjoin.visibleName]
  | through hjunction _ _ hpivot hjoin =>
    simp [hjunction, Join.names, hpivot.visibleName, hjoin.visibleName]

theorem aliasName_mem_joinNames (e : RelationEntry) : e.aliasName ∈ e.joinNames := by
  unfold joinNames
  cases e.relationship.junction <;> simp

/-- A junction does not bear the alias of its relation. -/
theorem pivotName_ne_aliasName (e : RelationEntry) : e.pivotName ≠ e.aliasName := by
  intro h
  have hlength := congrArg String.length h
  rw [pivotName, String.length_append] at hlength
  have hpivot : "_pivot".length = 6 := rfl
  omega

theorem nodup_joinNames (e : RelationEntry) : e.joinNames.Nodup := by
  unfold joinNames
  split
  · exact List.nodup_singleton _
  · exact List.nodup_cons.2 ⟨fun h => e.pivotName_ne_aliasName (List.mem_singleton.1 h),
      List.nodup_singleton _⟩

end RelationEntry

/-- The joins of an entry start from the name of its owner's table, if the map bears the aliases
    of its paths. -/
theorem joinsFor_of_entryJoins {inspector : Inspector} {root : String} {m : RelationMap}
    {e : RelationEntry} {js : List Join}
    (hm : ∀ f ∈ m.entries, f.aliasName = RelationPath.aliasOf f.path)
    (h : entryJoins inspector root m e = .ok js) :
    joinsFor inspector (e.ownerName root) e = .ok js := by
  unfold entryJoins at h
  unfold RelationEntry.ownerName
  cases hparent : e.parent? with
  | none =>
    rw [hparent] at h
    exact h
  | some parent =>
    rw [hparent] at h
    obtain ⟨ownerAlias, howner, h⟩ := Outcome.bind_eq_ok_iff.1 h
    -- the alias is looked up in the map, which has that of the path
    obtain ⟨f, hf, hname⟩ := Outcome.map_eq_ok_iff.1 howner
    obtain ⟨hmem, hpath⟩ := RelationMap.entry_eq_ok hf
    have halias : RelationPath.aliasOf parent = ownerAlias := by
      rw [← hname, hm f hmem, hpath]
    show joinsFor inspector (RelationPath.aliasOf parent) e = .ok js
    rw [halias]
    exact h

/-- The joins of an entry are its own. -/
theorem joinedBy_of_joinsFor {inspector : Inspector} {root : String} {e : RelationEntry}
    {js : List Join} (h : joinsFor inspector (e.ownerName root) e = .ok js) :
    e.JoinedBy inspector root js := by
  unfold joinsFor at h
  obtain ⟨table, htable, h⟩ := Outcome.bind_eq_ok_iff.1 h
  -- one join, or two with the junction in the middle
  cases hjunction : e.relationship.junction with
  | none =>
    rw [hjunction] at h
    obtain rfl := Outcome.pure_eq_ok_iff.1 h
    exact .direct hjunction htable (links_leftJoin _ _ _ _)
  | some junction =>
    rw [hjunction] at h
    obtain ⟨pivotTable, hpivotTable, h⟩ := Outcome.bind_eq_ok_iff.1 h
    obtain rfl := Outcome.pure_eq_ok_iff.1 h
    exact .through hjunction hpivotTable htable (links_leftJoin _ _ _ _) (links_leftJoin _ _ _ _)

/-! ## Names that are apart -/

namespace RelationMap

/-- No two paths ask for joins under one name. -/
def NamesApart (m : RelationMap) : Prop :=
  ∀ e ∈ m.entries, ∀ f ∈ m.entries, e.path ≠ f.path → ∀ n ∈ e.joinNames, n ∉ f.joinNames

/-- The number of entries that go through a junction. -/
def junctions (m : RelationMap) : Nat :=
  m.entries.countP fun e => e.relationship.junction.isSome

/-- Names are apart if none occurs twice among those that are asked for. -/
theorem nodup_joinNames_iff {m : RelationMap}
    (hpaths : (m.entries.map RelationEntry.path).Nodup) :
    (m.entries.flatMap RelationEntry.joinNames).Nodup ↔ m.NamesApart := by
  rw [List.nodup_flatMap]
  constructor
  -- names within one entry differ anyway
  · rintro ⟨-, hpairs⟩ e he f hf hne n hn hn'
    have hsymm : Std.Symm (Function.onFun List.Disjoint RelationEntry.joinNames) :=
      ⟨fun _ _ hef _ hn hn' => hef hn' hn⟩
    have hentries : e ≠ f := fun h => hne (congrArg RelationEntry.path h)
    exact hpairs.forall he hf hentries hn hn'
  · intro h
    refine ⟨fun e _ => e.nodup_joinNames, ?_⟩
    refine (List.pairwise_map.1 hpaths).imp_of_mem ?_
    intro e f he hf hne n hn hn'
    exact h e he f hf hne n hn hn'

theorem length_flatMap_joinNames (m : RelationMap) :
    (m.entries.flatMap RelationEntry.joinNames).length = m.entries.length + m.junctions := by
  unfold junctions
  induction m.entries with
  | nil => rfl
  | cons e es ih =>
    rw [List.flatMap_cons, List.length_append, ih, List.length_cons, List.countP_cons]
    unfold RelationEntry.joinNames
    cases e.relationship.junction <;> simp <;> omega

end RelationMap

/-- Joins that belong to entries have the names that these ask for. -/
theorem names_flatten_of_joinedBy {inspector : Inspector} {root : String}
    {es : List RelationEntry} {own : List (List Join)}
    (h : List.Forall₂ (fun e js => e.JoinedBy inspector root js) es own) :
    Join.names own.flatten = es.flatMap RelationEntry.joinNames := by
  induction h with
  | nil => rfl
  | cons hjoined _ ih =>
    rw [List.flatten_cons, Join.names_append, List.flatMap_cons, hjoined.names, ih]

/-! ## Joins of a compiled query -/

section made

variable {inspector : Inspector} {q : EntityQuery} {columns : List Expression}
  {paths : List String} {loading : Loading} {own : List (List Join)} {p : Plan}

theorem Plan.Made.aliasName (h : Made inspector q columns paths loading own p) :
    ∀ e ∈ p.relationMap.entries, e.aliasName = RelationPath.aliasOf e.path :=
  fun _ he => (RelationMap.resolve_eq_ok_iff.1 h.resolve).1.aliasName he

/-- The joins planned for the entries are their own. -/
theorem Plan.Made.joinedBy (h : Made inspector q columns paths loading own p) :
    List.Forall₂ (fun e js => e.JoinedBy inspector p.table js) p.relationMap.entries own :=
  (Outcome.mapM_eq_ok_iff.1 h.entryJoins).imp fun _ _ hjs =>
    joinedBy_of_joinsFor (joinsFor_of_entryJoins h.aliasName hjs)

theorem Plan.Made.joins_selection (h : Made inspector q columns paths loading own p) :
    p.selection.joins = own.flatten.foldl addJoin [] := by
  rw [← h.joins_eq]
  rfl

/-- The names of the joins are those that the entries ask for, also if joins are left out. -/
theorem Plan.Made.mem_names_iff (h : Made inspector q columns paths loading own p)
    {name : String} :
    name ∈ Join.names p.selection.joins ↔ ∃ e ∈ p.relationMap.entries, name ∈ e.joinNames := by
  rw [h.joins_selection, mem_names_foldl_addJoin, names_flatten_of_joinedBy h.joinedBy,
    List.mem_flatMap]
  exact or_iff_right List.not_mem_nil

end made

/-- Each entry of the relation map asks for its own joins, from the table of its parent or from
    the root table, and the query has all of them, in order, if and only if the names under
    which they are asked for are apart. -/
theorem compile_joins_iff_namesApart (inspector : Inspector) (q : EntityQuery) {c : Compilation}
    (h : compile inspector q none = .ok c) :
    inspector.storageName q.entity = .ok c.query.table ∧
      (c.relationMap.entries.map RelationEntry.path).Nodup ∧
      (∀ e ∈ c.relationMap.entries, e.aliasName = RelationPath.aliasOf e.path) ∧
      ∃ own : List (List Join),
        List.Forall₂ (fun e js => e.JoinedBy inspector c.query.table js)
          c.relationMap.entries own ∧
        c.query.joins.Sublist own.flatten ∧
        (c.relationMap.NamesApart → c.query.joins = own.flatten) ∧
        (c.query.joins.length = c.relationMap.entries.length + c.relationMap.junctions ↔
          c.relationMap.NamesApart) := by
  obtain ⟨columns, paths, loading, own, p, hmade, rfl⟩ := exists_made_of_compile h
  have hpaths := RelationMap.nodup_paths_of_resolve hmade.resolve
  have hnames := names_flatten_of_joinedBy hmade.joinedBy
  have hlength : own.flatten.length =
      p.relationMap.entries.length + p.relationMap.junctions := by
    rw [← RelationMap.length_flatMap_joinNames, ← hnames, Join.names, List.length_map]
  have hsublist : (own.flatten.foldl Plan.addJoin []).Sublist own.flatten :=
    Plan.foldl_addJoin_sublist [] own.flatten
  dsimp only
  rw [Plan.table_selection, hmade.joins_selection, ← RelationMap.nodup_joinNames_iff hpaths,
    ← hnames, ← hlength]
  refine ⟨hmade.storageName, hpaths, hmade.aliasName, own, hmade.joinedBy, hsublist, ?_, ?_, ?_⟩
  · intro hnodup
    exact Plan.foldl_addJoin_of_nodup hnodup
  · -- if none has been left out, no two names are the same
    intro heq
    have hall := hsublist.eq_of_length heq
    rw [← hall]
    exact Plan.nodup_names_foldl_addJoin _ List.nodup_nil
  · intro hnodup
    rw [Plan.foldl_addJoin_of_nodup hnodup]
    rfl

/-- A relation with one row, one with many rows beyond it, and one through a junction: five
    names that are apart. -/
theorem compile_joins_iff_namesApart_groups :
    let user : ClassMap := { ClassMap.ofTable "users" with
      relationships := .ofList [("home", .ofOne "Address" "home_id" "id"),
        ("groups", .through "Group" "id" "id" ⟨.table "members", "user_id", "group_id"⟩)] }
    let address : ClassMap := { ClassMap.ofTable "addresses" with
      relationships := .ofList [("tenants", .ofMany "User" "id" "home_id")] }
    let schema : Schema :=
      .ofList [("User", user), ("Address", address), ("Group", .ofTable "groups")]
    let q := ((EntityQuery.of "User").load "home.tenants.groups").filterValue
      "groups.name" "=" (.string "admins")
    ∃ c, compile schema.inspector q none = .ok c ∧ c.query.joins.length = 6 ∧
      c.relationMap.NamesApart := by
  intro user address schema q
  have hview : (compile schema.inspector q none).map (fun c =>
      (c.query.joins.length, c.relationMap.entries.length + c.relationMap.junctions)) =
      .ok (6, 6) := by
    decide +kernel
  obtain ⟨c, hc, hcounts⟩ := Outcome.map_eq_ok_iff.1 hview
  obtain ⟨hjoins, hentries⟩ := Prod.mk.inj hcounts
  obtain ⟨-, -, -, own, -, -, -, hiff⟩ := compile_joins_iff_namesApart schema.inspector q hc
  exact ⟨c, hc, hjoins, hiff.1 (hjoins.trans hentries.symm)⟩

/-- The paths `home.country` and `home__country` have the same alias. Only the second one, which
    has fewer segments, is joined, and both conditions are on its table. -/
theorem compile_merges_joins :
    let user : ClassMap := { ClassMap.ofTable "users" with
      relationships := .ofList [("home", .ofOne "Address" "home_id" "id"),
        ("home__country", .ofOne "Region" "region_id" "id")] }
    let address : ClassMap := { ClassMap.ofTable "addresses" with
      relationships := .ofList [("country", .ofOne "Country" "country_id" "id")] }
    let schema : Schema := .ofList [("User", user), ("Address", address),
      ("Country", .ofTable "countries"), ("Region", .ofTable "regions")]
    let q := ((EntityQuery.of "User").filterValue "home.country.name" "=" (.string "France")
      ).filterValue "home__country.name" "=" (.string "North")
    ∃ c, compile schema.inspector q none = .ok c ∧
      c.relationMap.entries.map (fun e => (e.path, e.aliasName)) =
        [("home", "home"), ("home__country", "home__country"), ("home.country", "home__country")] ∧
      c.query.joins.map (fun j => (j.table, j.visibleName)) =
        [("addresses", "home"), ("regions", "home__country")] ∧
      c.query.conditions.predicates.map Predicate.left =
        [.key "home__country.name", .key "home__country.name"] ∧
      ¬ c.relationMap.NamesApart := by
  intro user address schema q
  have hview : (compile schema.inspector q none).map (fun c =>
      (c.relationMap.entries.map (fun e => (e.path, e.aliasName)),
        c.query.joins.map (fun j => (j.table, j.visibleName)),
        c.query.conditions.predicates.map Predicate.left)) =
      .ok ([("home", "home"), ("home__country", "home__country"),
          ("home.country", "home__country")],
        [("addresses", "home"), ("regions", "home__country")],
        [.key "home__country.name", .key "home__country.name"]) := by
    decide +kernel
  obtain ⟨c, hc, hparts⟩ := Outcome.map_eq_ok_iff.1 hview
  obtain ⟨hentries, hrest⟩ := Prod.mk.inj hparts
  obtain ⟨hjoins, hkeys⟩ := Prod.mk.inj hrest
  refine ⟨c, hc, hentries, hjoins, hkeys, ?_⟩
  -- two entries with different paths ask for the same name
  intro hapart
  have hmem (path : String) (h : (path, "home__country") ∈
      c.relationMap.entries.map fun e => (e.path, e.aliasName)) :
      ∃ e ∈ c.relationMap.entries, e.path = path ∧ "home__country" ∈ e.joinNames := by
    obtain ⟨e, he, hpair⟩ := List.mem_map.1 h
    obtain ⟨hpath, halias⟩ := Prod.mk.inj hpair
    exact ⟨e, he, hpath, halias ▸ e.aliasName_mem_joinNames⟩
  rw [hentries] at hmem
  obtain ⟨e, he, hpath, hname⟩ := hmem "home__country" (by decide)
  obtain ⟨f, hf, hpath', hname'⟩ := hmem "home.country" (by decide)
  have hne : e.path ≠ f.path := by
    rw [hpath, hpath']
    decide
  exact hapart e he f hf hne _ hname hname'

end EntitySql
