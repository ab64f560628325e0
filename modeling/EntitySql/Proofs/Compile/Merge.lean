import EntitySql.Proofs.Compile.Scope

/-! # Compiling onto an existing query

    An entity query can be compiled into a query that has contents of its own.
    Whether that succeeds does not depend on the existing query, and what is
    there stays: columns, joins and sort keys are added behind it, unless an
    equal column, a join of the same name or the same sort key is there already.

    All three are added in the same way, one after the other unless the key of
    the element is taken. Adding to a list with contents is adding to an empty
    one and leaving out what is taken (`foldl_addFresh`), so the result follows
    from the existing query and the one that is compiled on its own.
-/

namespace EntitySql

/-! ## Columns -/

theorem Expression.equals_key_iff {name : String} {aliasName : Option String} {e : Expression} :
    (key name aliasName).equals e = true ↔ e = key name aliasName := by
  cases e with
  | key n a =>
    have hiff : (key name aliasName).equals (key n a) = true ↔ name = n ∧ aliasName = a := by
      simp [equals]
    rw [hiff, Expression.key.injEq, eq_comm, eq_comm (a := aliasName)]
  | _ => exact ⟨nofun, nofun⟩

/-- A key is added unless it is among the columns. -/
theorem Query.addColumn_key (q : Query) (name : String) (aliasName : Option String) :
    q.addColumn (.key name aliasName) =
      { q with columns := addFresh id q.columns (.key name aliasName) } := by
  -- for keys, values are equal only if they are the same
  have htaken : q.columns.any (Expression.key name aliasName).equals = true ↔
      Expression.key name aliasName ∈ q.columns.map id := by
    rw [List.any_eq_true, List.map_id]
    constructor
    · intro h
      obtain ⟨e, he, heq⟩ := h
      rw [Expression.equals_key_iff] at heq
      exact heq ▸ he
    · exact fun h => ⟨_, h, Expression.equals_key_iff.2 rfl⟩
  by_cases hmem : Expression.key name aliasName ∈ q.columns.map id
  · rw [addColumn, if_pos (htaken.2 hmem), addFresh_of_mem id hmem]
  · rw [addColumn, if_neg (mt htaken.1 hmem), addFresh_of_not_mem id hmem]

/-- Added keys change nothing but the columns. -/
theorem Query.foldl_addColumn {columns : List Expression}
    (h : ∀ c ∈ columns, ∃ name aliasName, c = .key name aliasName) (q : Query) :
    columns.foldl addColumn q = { q with columns := columns.foldl (addFresh id) q.columns } := by
  induction columns generalizing q with
  | nil => rfl
  | cons c columns ih =>
    obtain ⟨hc, hcolumns⟩ := List.forall_mem_cons.1 h
    obtain ⟨name, aliasName, rfl⟩ := hc
    rw [List.foldl_cons, List.foldl_cons, ih hcolumns, addColumn_key]

/-! ## Extended queries -/

/-- The existing query `e` has been extended to `r` by an entity query that is compiled to `own`
    on its own and whose relation paths are those of `m`. -/
structure Query.ExtendedTo (e : Query) (q : EntityQuery) (m : RelationMap) (own r : Query) :
    Prop where
  operation : r.operation = e.operation
  table : r.table = e.table
  values : r.values = e.values
  groupBys : r.groupBys = e.groupBys
  havings : r.havings = e.havings
  columns : r.columns = e.columns ++ own.columns.filter (· ∉ e.columns)
  joins : r.joins = e.joins ++ own.joins.filter fun j => j.visibleName ∉ Join.names e.joins
  /-- Sort keys of the existing query keep their places -/
  sortKeys : r.orderBys.keys =
    e.orderBys.keys ++ own.orderBys.keys.filter (· ∉ e.orderBys.keys)
  /-- They take the direction of the entity query if that has one for them -/
  directions : ∀ key, r.orderBys.get? key = (own.orderBys.get? key).or (e.orderBys.get? key)
  distinct : r.distinct = (e.distinct || m.entries.any RelationEntry.isToMany)
  limit : r.limit = q.limit.or e.limit
  offset : r.offset = q.offset.or e.offset

section made

variable {inspector : Inspector} {q : EntityQuery} {columns : List Expression}
  {paths : List String} {loading : Loading} {own : List (List Join)} {p : Plan}

theorem Plan.Made.extend_eq (h : Made inspector q columns paths loading own p) (e : Query) :
    p.extend e = { e with
      columns := p.columns.foldl (addFresh id) e.columns
      conditions := narrow e.conditions p.conditions
      orderBys := p.orderBys.foldl (fun o x => o.insert x.1 x.2) e.orderBys
      joins := p.joins.foldl (addFresh Join.visibleName) e.joins
      distinct := e.distinct || p.repeatsRows
      limit := p.limit.or e.limit
      offset := p.offset.or e.offset } := by
  -- all columns of the plan are keys, so each is compared as it is
  have hkeys : ∀ c ∈ p.columns, ∃ name aliasName, c = .key name aliasName := by
    intro c hc
    obtain ⟨name, aliasName, hc, -⟩ := h.inScope_planned c hc
    exact ⟨name, aliasName, hc⟩
  unfold extend
  rw [Query.foldl_addColumn hkeys, addJoin_eq_addFresh]

/-- What the plan adds to a query is what it selects on its own, but for what is there already. -/
theorem Plan.Made.extendedTo (h : Made inspector q columns paths loading own p) (e : Query) :
    e.ExtendedTo q p.relationMap p.selection (p.extend e) := by
  -- what the query gets on its own is the same plan, put into a selection without anything in it
  have hown := h.extend_eq (Query.select p.table)
  have hcolumns : p.selection.columns = p.columns.foldl (addFresh id) [] :=
    congrArg Query.columns hown
  have hjoins : p.selection.joins = p.joins.foldl (addFresh Join.visibleName) [] :=
    congrArg Query.joins hown
  rw [h.extend_eq e]
  refine ⟨rfl, rfl, rfl, rfl, rfl, ?_, ?_, ?_, ?_, rfl, ?_, ?_⟩
  · rw [hcolumns, ← freshIn_id]
    exact foldl_addFresh id e.columns p.columns
  · rw [hjoins]
    exact foldl_addFresh Join.visibleName e.joins p.joins
  · rw [p.sortKeys_selection, ← freshIn_id, ← foldl_addFresh]
    exact OrderedMap.keys_foldl_insert e.orderBys p.orderBys
  · exact OrderedMap.get?_foldl_insert p.orderBys fun _ => rfl
  · rw [h.limit_eq]
  · rw [h.offset_eq]

end made

/-- A query that is extended by what it has itself gets no column, join or sort key. -/
theorem Query.ExtendedTo.of_own {q : EntityQuery} {m : RelationMap} {own r : Query}
    (h : own.ExtendedTo q m own r) :
    r.columns = own.columns ∧ r.joins = own.joins ∧ r.orderBys = own.orderBys := by
  have hkeys : r.orderBys.keys = own.orderBys.keys := by
    rw [h.sortKeys, ← freshIn_id, freshIn_self, List.append_nil]
  refine ⟨?_, ?_, OrderedMap.eq_of_keys_of_get? hkeys fun key => ?_⟩
  · rw [h.columns, ← freshIn_id, freshIn_self, List.append_nil]
  · have hjoins : r.joins = own.joins ++ freshIn Join.visibleName own.joins own.joins := h.joins
    rw [hjoins, freshIn_self, List.append_nil]
  · rw [h.directions, Option.or_self]

/-! ## Compiling onto an existing query -/

/-- Compiling onto an existing query succeeds or fails as compiling on its own does, with the same
    relation map and the same deferred paths. The existing query is extended by what the entity
    query is compiled to on its own. That itself gets no further column, join or sort key. -/
theorem compile_onto_existing (inspector : Inspector) (q : EntityQuery) (e : Query) :
    (compile inspector q (some e)).map (fun c => (c.relationMap, c.deferred)) =
        (compile inspector q none).map (fun c => (c.relationMap, c.deferred)) ∧
      ∀ c, compile inspector q none = .ok c →
        (∃ r, compile inspector q (some e) = .ok ⟨r, c.relationMap, c.deferred⟩ ∧
          e.ExtendedTo q c.relationMap c.query r) ∧
        ∃ r, compile inspector q (some c.query) = .ok ⟨r, c.relationMap, c.deferred⟩ ∧
          r.columns = c.query.columns ∧ r.joins = c.query.joins ∧
            r.orderBys = c.query.orderBys := by
  constructor
  · unfold compile
    cases Plan.make inspector q with
    | error err => rfl
    | ok p => rfl
  · intro c hc
    obtain ⟨columns, paths, loading, own, p, hmade, rfl⟩ := exists_made_of_compile hc
    have hmake : Plan.make inspector q = .ok p :=
      Plan.make_eq_ok_iff.2 ⟨columns, paths, loading, own, hmade⟩
    -- the plan is the same for every existing query, also for the one that it has been put into
    have honto (e : Query) : compile inspector q (some e) =
        .ok ⟨p.extend e, p.relationMap, p.deferred⟩ :=
      compile_eq_ok_iff.2 ⟨p, hmake, rfl⟩
    exact ⟨⟨p.extend e, honto e, hmade.extendedTo e⟩,
      p.extend p.selection, honto p.selection, (hmade.extendedTo p.selection).of_own⟩

/-- The existing query has a column, a join and a sort key that the entity query asks for too. The
    join is another one of the same name, and the sort key has another direction. -/
theorem compile_onto_existing_colliding :
    let user : ClassMap := { ClassMap.ofTable "users" with
      keys := ["id", "name"]
      relationships := .ofList [
        ("home", .ofOne "Address" "home_id" "id"), ("posts", .ofMany "Post" "id" "user_id")] }
    let schema : Schema := .ofList
      [("User", user), ("Address", .ofTable "addresses"), ("Post", .ofTable "posts")]
    let q := ((((EntityQuery.of "User").filterValue "home.city" "=" (.string "Paris")).orderBy
      "home.city" .desc).orderBy "posts.title" .asc)
    let e := ((((Query.select "users").addColumn (.raw "count(*)")).addColumn
      (.key "users.id" none)).addJoin (.of .inner "towns" (some "home"))).orderBy "home.city" .asc
    ∃ c r, compile schema.inspector q none = .ok c ∧
      compile schema.inspector q (some e) = .ok ⟨r, c.relationMap, c.deferred⟩ ∧
      r.columns = [.raw "count(*)", .key "users.id" none, .key "users.name" none] ∧
      Join.names r.joins = ["home", "posts"] ∧ r.joins.take 1 = e.joins ∧
      r.orderBys.keys = ["home.city", "posts.title"] ∧
      r.orderBys.get? "home.city" = some .desc ∧ r.distinct = true := by
  intro user schema q e
  have hview : (compile schema.inspector q none).map (fun c =>
      (c.query.columns, c.query.joins, c.query.orderBys,
        c.relationMap.entries.any RelationEntry.isToMany)) =
      .ok ([.key "users.id" none, .key "users.name" none],
        [leftJoin "addresses" "home" "users.home_id" "home.id",
          leftJoin "posts" "posts" "users.id" "posts.user_id"],
        .ofList [("home.city", .desc), ("posts.title", .asc)], true) := by
    decide +kernel
  obtain ⟨c, hc, hparts⟩ := Outcome.map_eq_ok_iff.1 hview
  simp only [Prod.mk.injEq] at hparts
  obtain ⟨hcolumns, hjoins, horderBys, hmany⟩ := hparts
  obtain ⟨r, hr, hextended⟩ := ((compile_onto_existing schema.inspector q e).2 c hc).1
  -- each field follows from those of the query on its own
  refine ⟨c, r, hc, hr, ?_, ?_, ?_, ?_, ?_, ?_⟩
  · rw [hextended.columns, hcolumns]
    decide +kernel
  · rw [hextended.joins, hjoins]
    decide +kernel
  · rw [hextended.joins]
    rfl
  · rw [hextended.sortKeys, horderBys]
    decide +kernel
  · rw [hextended.directions, horderBys]
    rfl
  · rw [hextended.distinct, hmany]
    rfl

end EntitySql
