import EntitySql.Proofs.Compile.Loading
import EntitySql.Proofs.Relation.Alias

/-! # Aliases of the columns that are loaded along

    A compiled query selects a column for each path that is loaded along and each
    key of the entity it leads to, under an alias that is put together from the
    alias of the path and the key. No other column has an alias.

    Two such aliases may be the same text: a key may hold the two underscores
    that stand for a dot in the alias of a longer path. A column has its alias to
    itself just if no other column that is loaded along overlaps with it in this
    way. None does among well-named paths and keys without two underscores in a
    row.

    Paths may also have one alias as a whole (`home.country` and `home__country`).
    Then they have one column for each key that both of them lead to.
-/

namespace EntitySql

/-! ## Columns under an alias -/

/-- The alias that a column is selected under, if it has one. -/
def Expression.aliasName? : Expression → Option String
  | .key _ aliasName => aliasName
  | _ => none

/-- The columns that are selected under an alias. -/
def Query.columnsNamed (q : Query) (name : String) : List Expression :=
  q.columns.filter fun column => column.aliasName? = some name

theorem Query.mem_columnsNamed_iff {q : Query} {name : String} {column : Expression} :
    column ∈ q.columnsNamed name ↔ column ∈ q.columns ∧ column.aliasName? = some name := by
  rw [columnsNamed, List.mem_filter, decide_eq_true_iff]

/-- The keys of the entity that a path of the map leads to. -/
def RelationMap.relatedKeys (inspector : Inspector) (m : RelationMap) (path : String) :
    Except SqlError (List String) :=
  m.entry path >>= fun e => inspector.keys e.relationship.related

/-- The entity that the path leads to is loaded along, and the key is one of its keys. -/
def Loads (inspector : Inspector) (q : EntityQuery) (m : RelationMap) (path key : String) : Prop :=
  (∃ eager ∈ q.eager, path ∈ m.toOnePrefixes eager) ∧
    ∃ keys, m.relatedKeys inspector path = .ok keys ∧ key ∈ keys

/-- Columns of two paths have the same alias, but are not the same: the alias of one path goes on
    where that of the other one ends, with what the key of that one begins with. -/
def Overlapping (path key path' key' : String) : Prop :=
  RelationPath.Continues (RelationPath.aliasOf path) key (RelationPath.aliasOf path') key' ∨
    RelationPath.Continues (RelationPath.aliasOf path') key' (RelationPath.aliasOf path) key

def relatedAlias (path key : String) : String :=
  RelationPath.columnAlias (RelationPath.aliasOf path) key

section related

variable {path key path' key' : String}

@[simp] theorem aliasName?_relatedColumn (path key : String) :
    (relatedColumn path key).aliasName? = some (relatedAlias path key) := rfl

/-- Where the alias of one path goes on, the dot of its column is further to the right. -/
theorem qualified_ne_of_continues {a k a' k' : String}
    (h : RelationPath.Continues a k a' k') : qualified a k ≠ qualified a' k' := by
  intro heq
  have hchars := congrArg String.toList heq
  rcases h with ⟨middle, rfl, rfl⟩ | ⟨rfl, rfl⟩ <;> simp [qualified] at hchars

theorem relatedColumn_ne_of_overlapping (h : Overlapping path key path' key') :
    relatedColumn path key ≠ relatedColumn path' key' := by
  intro heq
  obtain ⟨hname, -⟩ := Expression.key.inj heq
  rcases h with h | h
  · exact qualified_ne_of_continues h hname
  · exact qualified_ne_of_continues h hname.symm

/-- Pairs give one column just if the relations have the same alias and the keys are the same: the
    paths themselves may differ. -/
theorem relatedColumn_eq_iff :
    relatedColumn path key = relatedColumn path' key' ↔
      RelationPath.aliasOf path = RelationPath.aliasOf path' ∧ key = key' := by
  constructor
  · intro h
    have hname : relatedAlias path key = relatedAlias path' key' :=
      Option.some.inj (congrArg Expression.aliasName? h)
    -- one alias from different pairs means an overlap, and then the names of the columns differ
    rcases RelationPath.columnAlias_eq_iff.1 hname with hsame | hoverlap
    · exact hsame
    · exact absurd h (relatedColumn_ne_of_overlapping hoverlap)
  · rintro ⟨halias, rfl⟩
    unfold relatedColumn
    rw [halias]

/-- Columns with the same alias are the same or overlap. -/
theorem relatedAlias_eq_iff :
    relatedAlias path key = relatedAlias path' key' ↔
      relatedColumn path key = relatedColumn path' key' ∨ Overlapping path key path' key' := by
  rw [relatedColumn_eq_iff]
  exact RelationPath.columnAlias_eq_iff

end related

/-! ## Columns of a compiled query -/

theorem aliasName?_of_mem_rootSelection {table : String} {primaryKey keys : List String}
    {column : Expression} (h : column ∈ rootSelection table primaryKey keys) :
    column.aliasName? = none := by
  unfold rootSelection at h
  split at h
  · rw [List.mem_singleton.1 h]
    rfl
  · obtain ⟨k, -, rfl⟩ := List.mem_map.1 h
    rfl

/-- The columns of a path of the map are those of the keys of the entity it leads to. -/
theorem RelationMap.columnsOf_of_relatedKeys {inspector : Inspector} {m : RelationMap}
    {path : String} {e : RelationEntry} {keys : List String} (he : m.entry path = .ok e)
    (hkeys : inspector.keys e.relationship.related = .ok keys)
    (halias : e.aliasName = RelationPath.aliasOf path) :
    m.columnsOf inspector path = keys.map (relatedColumn path) := by
  have hcolumns : m.entry path >>= relationColumns inspector =
      .ok (keys.map (relatedColumn path)) := by
    refine Outcome.bind_eq_ok_iff.2 ⟨e, he, Outcome.bind_eq_ok_iff.2 ⟨keys, hkeys, ?_⟩⟩
    rw [halias]
    rfl
  rw [columnsOf, hcolumns]

section compile

variable {inspector : Inspector} {q : EntityQuery} {c : Compilation}

/-- Without an existing query each column of the plan is selected once. -/
theorem Plan.Made.columns_selection {columns : List Expression} {paths : List String}
    {loading : Loading} {own : List (List Join)} {p : Plan}
    (h : Made inspector q columns paths loading own p) :
    p.selection.columns = (columns ++ loading.columns).eraseDups := by
  rw [← h.columns_eq, ← foldl_addFresh_nil]
  exact congrArg Query.columns (h.extend_eq (Query.select p.table))

/-- The columns with an alias are those of the keys that are loaded along. -/
theorem mem_columns_of_compile (h : compile inspector q none = .ok c) (column : Expression) :
    column ∈ c.query.columns ∧ column.aliasName? ≠ none ↔
      ∃ path key, Loads inspector q c.relationMap path key ∧ column = relatedColumn path key := by
  obtain ⟨columns, paths, loading, own, p, hmade, rfl⟩ := exists_made_of_compile h
  obtain ⟨primaryKey, keys, -, -, rfl⟩ := exists_keys_of_rootColumns hmade.rootColumns
  have htracks := Loading.tracks_ofPaths hmade.ofPaths
  have hloading : column ∈ loading.columns ↔
      ∃ path ∈ q.eager.flatMap p.relationMap.toOnePrefixes,
        column ∈ p.relationMap.columnsOf inspector path := by
    rw [← List.mem_eraseDups, htracks.columns, List.mem_eraseDups, List.mem_flatMap]
  have hcolumnsOf {path : String} {e : RelationEntry} {keys : List String}
      (he : p.relationMap.entry path = .ok e)
      (hkeys : inspector.keys e.relationship.related = .ok keys) :
      p.relationMap.columnsOf inspector path = keys.map (relatedColumn path) := by
    obtain ⟨hmem, hpath⟩ := RelationMap.entry_eq_ok he
    exact RelationMap.columnsOf_of_relatedKeys he hkeys (hpath ▸ hmade.aliasName e hmem)
  show column ∈ p.selection.columns ∧ _ ↔ _
  rw [hmade.columns_selection, List.mem_eraseDups, List.mem_append]
  constructor
  · rintro ⟨hroot | hcolumn, halias⟩
    -- the columns of the root table have no alias
    · exact absurd (aliasName?_of_mem_rootSelection hroot) halias
    · obtain ⟨path, hpath, hcolumn⟩ := hloading.1 hcolumn
      obtain ⟨e, he, hown⟩ := htracks.known path hpath
      obtain ⟨keys, hkeys, -⟩ := Outcome.bind_eq_ok_iff.1 hown
      rw [hcolumnsOf he hkeys] at hcolumn
      obtain ⟨key, hkey, rfl⟩ := List.mem_map.1 hcolumn
      have hrelated : p.relationMap.relatedKeys inspector path = .ok keys :=
        Outcome.bind_eq_ok_iff.2 ⟨e, he, hkeys⟩
      exact ⟨path, key, ⟨List.mem_flatMap.1 hpath, keys, hrelated, hkey⟩, rfl⟩
  · rintro ⟨path, key, ⟨hpath, keys, hrelated, hkey⟩, rfl⟩
    obtain ⟨e, he, hkeys⟩ := Outcome.bind_eq_ok_iff.1 hrelated
    refine ⟨Or.inr (hloading.2 ⟨path, List.mem_flatMap.2 hpath, ?_⟩), Option.some_ne_none _⟩
    rw [hcolumnsOf he hkeys]
    exact List.mem_map_of_mem hkey

theorem nodup_columns_of_compile (h : compile inspector q none = .ok c) :
    c.query.columns.Nodup := by
  obtain ⟨columns, paths, loading, own, p, hmade, rfl⟩ := exists_made_of_compile h
  show p.selection.columns.Nodup
  rw [hmade.columns_selection]
  exact nodup_eraseDups _

theorem count_relatedColumn_of_compile (h : compile inspector q none = .ok c) {path key : String}
    (hloads : Loads inspector q c.relationMap path key) :
    c.query.columns.count (relatedColumn path key) = 1 := by
  have hcolumn := (mem_columns_of_compile h (relatedColumn path key)).2 ⟨path, key, hloads, rfl⟩
  exact List.count_eq_one_of_mem (nodup_columns_of_compile h) hcolumn.1

/-- The columns under an alias are those of the keys that are loaded along and have that alias. -/
theorem mem_columnsNamed_of_compile (h : compile inspector q none = .ok c) (name : String)
    (column : Expression) :
    column ∈ c.query.columnsNamed name ↔
      ∃ path key, Loads inspector q c.relationMap path key ∧ column = relatedColumn path key ∧
        relatedAlias path key = name := by
  rw [Query.mem_columnsNamed_iff]
  constructor
  · rintro ⟨hmem, hname⟩
    have halias : column.aliasName? ≠ none := by
      rw [hname]
      exact Option.some_ne_none name
    obtain ⟨path, key, hloads, rfl⟩ := (mem_columns_of_compile h column).1 ⟨hmem, halias⟩
    exact ⟨path, key, hloads, rfl, Option.some.inj hname⟩
  -- each of these has the alias and is among the columns
  · rintro ⟨path, key, hloads, rfl, rfl⟩
    obtain ⟨hmem, -⟩ := (mem_columns_of_compile h _).2 ⟨path, key, hloads, rfl⟩
    exact ⟨hmem, aliasName?_relatedColumn path key⟩

end compile

/-- A list without repetitions whose only element is known. -/
theorem eq_singleton_iff_of_nodup {α : Type} {xs : List α} {x : α} (hxs : xs.Nodup) (hx : x ∈ xs) :
    xs = [x] ↔ ∀ y ∈ xs, y = x := by
  rw [← List.perm_singleton, List.perm_ext_iff_of_nodup hxs (List.nodup_singleton x)]
  constructor
  · intro h y hy
    exact List.mem_singleton.1 ((h y).1 hy)
  · intro h y
    rw [List.mem_singleton]
    exact ⟨h y, fun heq => heq ▸ hx⟩

/-- The columns of a compiled query that have an alias are those of the keys that are loaded along,
    each under the alias of its path and its key, and each selected once. Two paths whose relations
    have the same alias share the columns of the keys that they have in common; columns are shared
    in no other way. A column has its alias to itself just if it overlaps with no other one that is
    loaded along. For well-named paths and keys without two underscores in a row the alias
    determines both the path and the key. -/
theorem compile_columnsNamed_iff (inspector : Inspector) (q : EntityQuery) {c : Compilation}
    (h : compile inspector q none = .ok c) :
    (∀ column, column ∈ c.query.columns ∧ column.aliasName? ≠ none ↔
      ∃ path key, Loads inspector q c.relationMap path key ∧ column = relatedColumn path key) ∧
    (∀ path key, Loads inspector q c.relationMap path key →
      c.query.columns.count (relatedColumn path key) = 1 ∧
      ∀ path' key', Loads inspector q c.relationMap path' key' →
        (relatedColumn path key = relatedColumn path' key' ↔
          RelationPath.aliasOf path = RelationPath.aliasOf path' ∧ key = key')) ∧
    (∀ path key, Loads inspector q c.relationMap path key →
      (c.query.columnsNamed (relatedAlias path key) = [relatedColumn path key] ↔
        ∀ path' key', Loads inspector q c.relationMap path' key' →
          ¬Overlapping path key path' key')) ∧
    ∀ path key path' key', Loads inspector q c.relationMap path key →
      Loads inspector q c.relationMap path' key' →
      RelationPath.WellNamed path → RelationPath.WellNamed path' →
      ¬RelationPath.HasSeparator key.toList → ¬RelationPath.HasSeparator key'.toList →
      relatedAlias path key = relatedAlias path' key' → path = path' ∧ key = key' := by
  refine ⟨mem_columns_of_compile h, fun path key hloads => ⟨?_, ?_⟩, fun path key hloads => ?_, ?_⟩
  · exact count_relatedColumn_of_compile h hloads
  · intro path' key' _
    exact relatedColumn_eq_iff
  · have hown : relatedColumn path key ∈ c.query.columnsNamed (relatedAlias path key) :=
      (mem_columnsNamed_of_compile h _ _).2 ⟨path, key, hloads, rfl, rfl⟩
    have hnodup : (c.query.columnsNamed (relatedAlias path key)).Nodup :=
      (nodup_columns_of_compile h).filter _
    rw [eq_singleton_iff_of_nodup hnodup hown]
    constructor
    · intro honly path' key' hloads' hoverlap
      -- the other column would be under the alias too, and is not the same
      have halias := relatedAlias_eq_iff.2 (Or.inr hoverlap)
      have hother := (mem_columnsNamed_of_compile h _ _).2
        ⟨path', key', hloads', rfl, halias.symm⟩
      exact relatedColumn_ne_of_overlapping hoverlap (honly _ hother).symm
    · intro hnone column hcolumn
      obtain ⟨path', key', hloads', rfl, halias⟩ := (mem_columnsNamed_of_compile h _ _).1 hcolumn
      rcases relatedAlias_eq_iff.1 halias.symm with hsame | hoverlap
      · exact hsame.symm
      · exact absurd hoverlap (hnone path' key' hloads')
  · intro path key path' key' _ _ hpath hpath' hkey hkey' halias
    exact RelationPath.eq_of_columnAlias_eq hpath hpath' hkey hkey' halias

/-- Nothing overlaps with the city of a home, although the country of the home is loaded too. -/
theorem compile_columnsNamed_iff_home :
    let user : ClassMap := { ClassMap.ofTable "users" with
      keys := ["id", "name"]
      relationships := .ofList [("home", .ofOne "Address" "home_id" "id")] }
    let address : ClassMap := { ClassMap.ofTable "addresses" with
      keys := ["id", "city"]
      relationships := .ofList [("country", .ofOne "Country" "country_code" "code")] }
    let country : ClassMap := { ClassMap.ofTable "countries" with keys := ["code"] }
    let schema : Schema := .ofList [("User", user), ("Address", address), ("Country", country)]
    let q : EntityQuery := { EntityQuery.of "User" with eager := ["home.country"] }
    ∃ c, compile schema.inspector q none = .ok c ∧
      Loads schema.inspector q c.relationMap "home" "city" ∧
      Loads schema.inspector q c.relationMap "home.country" "code" ∧
      (∀ path key, Loads schema.inspector q c.relationMap path key →
        ¬Overlapping "home" "city" path key) ∧
      relatedAlias "home" "city" ≠ relatedAlias "home.country" "code" := by
  intro user address country schema q
  -- all that the result is asked for, evaluated in one go
  have hview : (compile schema.inspector q none).map (fun c =>
      (c.query.columnsNamed "home__city", c.relationMap.toOnePrefixes "home.country",
        c.relationMap.relatedKeys schema.inspector "home",
        c.relationMap.relatedKeys schema.inspector "home.country")) =
      .ok ([relatedColumn "home" "city"], ["home", "home.country"], .ok ["id", "city"],
        .ok ["code"]) := by
    decide +kernel
  obtain ⟨c, hc, hparts⟩ := Outcome.map_eq_ok_iff.1 hview
  simp only [Prod.mk.injEq] at hparts
  obtain ⟨hcity, hone, hhome, hcountry⟩ := hparts
  have heager : "home.country" ∈ q.eager := List.mem_singleton_self _
  have hcityLoads : Loads schema.inspector q c.relationMap "home" "city" :=
    ⟨⟨_, heager, by rw [hone]; decide⟩, _, hhome, by decide⟩
  have hcodeLoads : Loads schema.inspector q c.relationMap "home.country" "code" :=
    ⟨⟨_, heager, by rw [hone]; decide⟩, _, hcountry, by decide⟩
  obtain ⟨-, -, honly, happart⟩ := compile_columnsNamed_iff schema.inspector q hc
  refine ⟨c, hc, hcityLoads, hcodeLoads, (honly _ _ hcityLoads).1 hcity, fun hsame => ?_⟩
  -- the alias of a column tells these two paths apart
  have hnames : RelationPath.WellNamed "home" ∧ RelationPath.WellNamed "home.country" := by
    decide +kernel
  have hkeys : ¬RelationPath.HasSeparator "city".toList ∧
      ¬RelationPath.HasSeparator "code".toList := by
    decide +kernel
  obtain ⟨hpath, -⟩ := happart _ _ _ _ hcityLoads hcodeLoads hnames.1 hnames.2 hkeys.1 hkeys.2 hsame
  exact absurd hpath (by decide)

/-- A key of the first relation is named like a key of the second one behind the name of that: the
    columns of both keys are selected under one alias. -/
theorem compile_columnsNamed_two :
    let user : ClassMap := { ClassMap.ofTable "users" with
      keys := ["id"]
      relationships := .ofList [("home", .ofOne "Address" "home_id" "id")] }
    let address : ClassMap := { ClassMap.ofTable "addresses" with
      keys := ["id", "country__id"]
      relationships := .ofList [("country", .ofOne "Country" "country__id" "id")] }
    let country : ClassMap := { ClassMap.ofTable "countries" with keys := ["id"] }
    let schema : Schema := .ofList [("User", user), ("Address", address), ("Country", country)]
    let q : EntityQuery := { EntityQuery.of "User" with eager := ["home.country"] }
    ∃ c, compile schema.inspector q none = .ok c ∧
      Loads schema.inspector q c.relationMap "home" "country__id" ∧
      Loads schema.inspector q c.relationMap "home.country" "id" ∧
      c.query.columnsNamed "home__country__id" =
        [.key "home.country__id" (some "home__country__id"),
          .key "home__country.id" (some "home__country__id")] := by
  intro user address country schema q
  -- both columns are evaluated, and which paths and keys they stem from
  have hview : (compile schema.inspector q none).map (fun c =>
      (c.query.columnsNamed "home__country__id", c.relationMap.toOnePrefixes "home.country",
        c.relationMap.relatedKeys schema.inspector "home",
        c.relationMap.relatedKeys schema.inspector "home.country")) =
      .ok ([.key "home.country__id" (some "home__country__id"),
        .key "home__country.id" (some "home__country__id")], ["home", "home.country"],
        .ok ["id", "country__id"], .ok ["id"]) := by
    decide +kernel
  obtain ⟨c, hc, hparts⟩ := Outcome.map_eq_ok_iff.1 hview
  simp only [Prod.mk.injEq] at hparts
  obtain ⟨hnamed, hone, hhome, hcountry⟩ := hparts
  have heager : "home.country" ∈ q.eager := List.mem_singleton_self _
  refine ⟨c, hc, ⟨⟨_, heager, ?_⟩, _, hhome, by decide⟩, ⟨⟨_, heager, ?_⟩, _, hcountry, by decide⟩,
    hnamed⟩
  · rw [hone]
    decide
  · rw [hone]
    decide

end EntitySql
