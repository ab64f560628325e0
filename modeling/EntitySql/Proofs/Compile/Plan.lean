import EntitySql.Compilation
import EntitySql.Proofs.Outcome

/-! # Plans that have been made

    A plan is made in eight steps that may fail. `Plan.Made` says what each of
    them has given, and how the plan is put together from that.
-/

namespace EntitySql

/-- The plan has been made from the root columns, relation paths, decisions on loading and
    joins of each entry that its steps have given. -/
structure Plan.Made (inspector : Inspector) (q : EntityQuery) (columns : List Expression)
    (paths : List String) (loading : Loading) (joins : List (List Join)) (p : Plan) : Prop where
  storageName : inspector.storageName q.entity = .ok p.table
  rootColumns : EntitySql.rootColumns inspector q.entity p.table = .ok columns
  relationPathsOf : q.relationPathsOf = .ok paths
  resolve : RelationMap.resolve inspector q.entity paths = .ok p.relationMap
  ofPaths : Loading.ofPaths inspector p.relationMap q.eager = .ok loading
  mapPredicates :
    q.conditions.mapPredicates (resolvePredicate p.table p.relationMap) = .ok p.conditions
  resolveKeys :
    (q.orderBys.entries.mapM fun e =>
      (resolveKey p.table p.relationMap e.1).map fun k => (k, e.2)) = .ok p.orderBys
  entryJoins :
    p.relationMap.entries.mapM (EntitySql.entryJoins inspector p.table p.relationMap) = .ok joins
  columns_eq : p.columns = columns ++ loading.columns
  deferred_eq : p.deferred = loading.deferred
  joins_eq : p.joins = joins.flatten
  limit_eq : p.limit = q.limit
  offset_eq : p.offset = q.offset

/-- A plan is made if and only if all its steps succeed. -/
theorem Plan.make_eq_ok_iff {inspector : Inspector} {q : EntityQuery} {p : Plan} :
    make inspector q = .ok p ↔
      ∃ columns paths loading joins, Made inspector q columns paths loading joins p := by
  unfold make
  constructor
  · intro h
    -- each step has given a value, in the order of the steps
    obtain ⟨root, hroot, h⟩ := Outcome.bind_eq_ok_iff.1 h
    obtain ⟨columns, hcolumns, h⟩ := Outcome.bind_eq_ok_iff.1 h
    obtain ⟨paths, hpaths, h⟩ := Outcome.bind_eq_ok_iff.1 h
    obtain ⟨m, hm, h⟩ := Outcome.bind_eq_ok_iff.1 h
    obtain ⟨loading, hloading, h⟩ := Outcome.bind_eq_ok_iff.1 h
    obtain ⟨conditions, hconditions, h⟩ := Outcome.bind_eq_ok_iff.1 h
    obtain ⟨orderBys, horderBys, h⟩ := Outcome.bind_eq_ok_iff.1 h
    obtain ⟨joins, hjoins, h⟩ := Outcome.bind_eq_ok_iff.1 h
    obtain rfl := Outcome.pure_eq_ok_iff.1 h
    exact ⟨columns, paths, loading, joins, hroot, hcolumns, hpaths, hm, hloading, hconditions,
      horderBys, hjoins, rfl, rfl, rfl, rfl, rfl⟩
  · rintro ⟨columns, paths, loading, joins, h⟩
    -- and with these values the steps end in the plan
    refine Outcome.bind_eq_ok_iff.2 ⟨p.table, h.storageName, ?_⟩
    refine Outcome.bind_eq_ok_iff.2 ⟨columns, h.rootColumns, ?_⟩
    refine Outcome.bind_eq_ok_iff.2 ⟨paths, h.relationPathsOf, ?_⟩
    refine Outcome.bind_eq_ok_iff.2 ⟨p.relationMap, h.resolve, ?_⟩
    refine Outcome.bind_eq_ok_iff.2 ⟨loading, h.ofPaths, ?_⟩
    refine Outcome.bind_eq_ok_iff.2 ⟨p.conditions, h.mapPredicates, ?_⟩
    refine Outcome.bind_eq_ok_iff.2 ⟨p.orderBys, h.resolveKeys, ?_⟩
    refine Outcome.bind_eq_ok_iff.2 ⟨joins, h.entryJoins, ?_⟩
    rw [Outcome.pure_eq_ok_iff, ← h.columns_eq, ← h.deferred_eq, ← h.joins_eq, ← h.limit_eq,
      ← h.offset_eq]

/-- Selected columns do not change the table. -/
theorem Query.table_foldl_addColumn (columns : List Expression) (q : Query) :
    (columns.foldl addColumn q).table = q.table := by
  induction columns generalizing q with
  | nil => rfl
  | cons column columns ih =>
    rw [List.foldl_cons, ih]
    unfold addColumn
    split <;> rfl

/-- A plan is put into a query on the query's own table. -/
theorem Plan.table_extend (p : Plan) (q : Query) : (p.extend q).table = q.table :=
  Query.table_foldl_addColumn p.columns q

/-- The plan as a selection of its own. -/
def Plan.selection (p : Plan) : Query := p.extend (Query.select p.table)

theorem Plan.table_selection (p : Plan) : p.selection.table = p.table :=
  p.table_extend (Query.select p.table)

/-- A compilation succeeds if the plan is made, and puts it into the query. -/
theorem compile_eq_ok_iff {inspector : Inspector} {q : EntityQuery} {existing : Option Query}
    {c : Compilation} :
    compile inspector q existing = .ok c ↔
      ∃ p, Plan.make inspector q = .ok p ∧
        ⟨p.extend (existing.getD (Query.select p.table)), p.relationMap, p.deferred⟩ = c :=
  Outcome.map_eq_ok_iff

/-- Without an existing query the plan becomes a selection of its own. -/
theorem exists_made_of_compile {inspector : Inspector} {q : EntityQuery} {c : Compilation}
    (h : compile inspector q none = .ok c) :
    ∃ columns paths loading joins p, Plan.Made inspector q columns paths loading joins p ∧
      c = ⟨p.selection, p.relationMap, p.deferred⟩ := by
  obtain ⟨p, hp, rfl⟩ := compile_eq_ok_iff.1 h
  obtain ⟨columns, paths, loading, joins, hmade⟩ := Plan.make_eq_ok_iff.1 hp
  exact ⟨columns, paths, loading, joins, p, hmade, rfl⟩

end EntitySql
