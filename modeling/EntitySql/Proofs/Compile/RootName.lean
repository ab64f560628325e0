import EntitySql.Proofs.Compile.Joins

/-! # The name of the root table

    The table of a compiled query is visible under its own name, and each join
    under the alias of a relation path or of a junction. Joins are compared only
    with one another when they are added, so that one of them may be visible
    under the name of the root table too. Then this name has two sources, and a
    column of the root table cannot be told from one of that join.

    This is so exactly if the alias of some path that the query goes along, or
    of the junction on it, is the name of the root table. It does not matter
    whether the related entity is the root entity itself, since the alias comes
    from the path alone.
-/

namespace EntitySql

/-! ## Sources of a name -/

/-- What the rows under a name may come from. -/
inductive Query.Source where
  /-- The table that the query selects from -/
  | table
  /-- A joined table -/
  | join (j : Join)
  deriving DecidableEq, Inhabited

/-- All sources that are visible under a name. -/
def Query.sources (q : Query) (name : String) : List Source :=
  (if name = q.table then [.table] else []) ++
    (q.joins.filter fun j => j.visibleName == name).map .join

theorem Join.not_mem_names_iff {js : List Join} {name : String} :
    name ∉ names js ↔ ∀ j ∈ js, j.visibleName ≠ name := by
  rw [names, List.mem_map]
  push Not
  rfl

/-- No join is left if its name is not among the names. -/
theorem Join.filter_of_not_mem_names {js : List Join} {name : String} (h : name ∉ names js) :
    (js.filter fun j => j.visibleName == name) = [] := by
  apply List.filter_eq_nil_iff.2
  intro j hj heq
  exact not_mem_names_iff.1 h j hj (beq_iff_eq.1 heq)

/-- If no two joins have one name, at most one has a given name. -/
theorem Join.filter_visibleName {js : List Join} {j : Join} (hnodup : (names js).Nodup)
    (hj : j ∈ js) : (js.filter fun k => k.visibleName == j.visibleName) = [j] := by
  induction js with
  | nil => exact absurd hj List.not_mem_nil
  | cons k js ih =>
    obtain ⟨hk, hjs⟩ := List.nodup_cons.1 hnodup
    rcases List.mem_cons.1 hj with rfl | hj
    · -- none of the other joins has this name
      rw [List.filter_cons, if_pos (beq_self_eq_true _), filter_of_not_mem_names hk]
    · have hne : ¬ (k.visibleName == j.visibleName) = true := by
        intro heq
        exact not_mem_names_iff.1 hk j hj (beq_iff_eq.1 heq).symm
      rw [List.filter_cons, if_neg hne]
      exact ih hjs hj

namespace Query

variable {q : Query}

/-- A name that no join has is that of the table or of nothing. -/
theorem sources_of_not_mem {name : String} (h : name ∉ Join.names q.joins) :
    q.sources name = if name = q.table then [.table] else [] := by
  rw [sources, Join.filter_of_not_mem_names h]
  exact List.append_nil _

/-- A name that a join has is that of this join and perhaps of the table. -/
theorem sources_of_mem {name : String} (hnodup : (Join.names q.joins).Nodup)
    (h : name ∈ Join.names q.joins) :
    ∃ j ∈ q.joins, q.sources name = (if name = q.table then [.table] else []) ++ [.join j] := by
  obtain ⟨j, hj, rfl⟩ := List.mem_map.1 h
  refine ⟨j, hj, ?_⟩
  rw [sources, Join.filter_visibleName hnodup hj]
  rfl

end Query

/-! ## Names apart from that of the root -/

/-- Neither the alias of a relation nor that of a junction is the name of the root table. -/
def RelationMap.RootApart (m : RelationMap) (root : String) : Prop :=
  ∀ e ∈ m.entries, e.aliasName ≠ root ∧
    (e.relationship.junction.isSome = true → e.pivotName ≠ root)

/-- An entry asks for its alias, and for that of its junction if it goes through one. -/
theorem RelationEntry.mem_joinNames_iff {e : RelationEntry} {name : String} :
    name ∈ e.joinNames ↔
      e.aliasName = name ∨ e.relationship.junction.isSome = true ∧ e.pivotName = name := by
  unfold joinNames
  cases e.relationship.junction with
  | none => simp [eq_comm]
  | some junction => simp [eq_comm, or_comm]

theorem RelationMap.rootApart_iff {m : RelationMap} {root : String} :
    m.RootApart root ↔ ∀ e ∈ m.entries, root ∉ e.joinNames := by
  refine forall₂_congr fun e _ => ?_
  rw [RelationEntry.mem_joinNames_iff, not_or, not_and]

section made

variable {inspector : Inspector} {q : EntityQuery} {columns : List Expression}
  {paths : List String} {loading : Loading} {own : List (List Join)} {p : Plan}

theorem Plan.Made.nodup_names (h : Made inspector q columns paths loading own p) :
    (Join.names p.selection.joins).Nodup := by
  rw [h.joins_selection]
  exact nodup_names_foldl_addJoin _ List.nodup_nil

/-- No join has the name of the root table if and only if all names are apart from it. -/
theorem Plan.Made.table_not_mem_names_iff (h : Made inspector q columns paths loading own p) :
    p.table ∉ Join.names p.selection.joins ↔ p.relationMap.RootApart p.table := by
  rw [RelationMap.rootApart_iff, h.mem_names_iff]
  push Not
  rfl

end made

/-- The name of the root table has this one source, and the alias of each relation a join, if
    and only if neither the alias of a path nor that of a junction is the name of the root
    table. Else just one join is visible under this name as well. -/
theorem compile_rootName_iff_rootApart (inspector : Inspector) (q : EntityQuery)
    {c : Compilation} (h : compile inspector q none = .ok c) :
    inspector.storageName q.entity = .ok c.query.table ∧
      (∀ e ∈ c.relationMap.entries, e.aliasName = RelationPath.aliasOf e.path) ∧
      ((∀ j ∈ c.query.joins, j.visibleName ≠ c.query.table) ↔
        c.relationMap.RootApart c.query.table) ∧
      (c.relationMap.RootApart c.query.table →
        c.query.sources c.query.table = [.table] ∧
        ∀ e ∈ c.relationMap.entries, ∃ j ∈ c.query.joins,
          c.query.sources e.aliasName = [.join j]) ∧
      (¬ c.relationMap.RootApart c.query.table →
        ∃ j ∈ c.query.joins, c.query.sources c.query.table = [.table, .join j]) := by
  obtain ⟨columns, paths, loading, own, p, hmade, rfl⟩ := exists_made_of_compile h
  have htable := p.table_selection
  have hfree := hmade.table_not_mem_names_iff
  dsimp only
  rw [htable]
  refine ⟨hmade.storageName, hmade.aliasName, ?_, ?_, ?_⟩
  · rw [← hfree]
    exact Join.not_mem_names_iff.symm
  · intro hapart
    have htable' : p.table = p.selection.table := htable.symm
    constructor
    · rw [Query.sources_of_not_mem (hfree.2 hapart), if_pos htable']
    · intro e he
      have hmem : e.aliasName ∈ Join.names p.selection.joins :=
        hmade.mem_names_iff.2 ⟨e, he, e.aliasName_mem_joinNames⟩
      have hne : e.aliasName ≠ p.selection.table := by
        rw [htable]
        exact (hapart e he).1
      obtain ⟨j, hj, hsources⟩ := Query.sources_of_mem hmade.nodup_names hmem
      refine ⟨j, hj, ?_⟩
      rw [hsources, if_neg hne]
      rfl
  · intro hcaptured
    -- the name is asked for, and a join that is asked for is there or has a namesake
    have hmem : p.table ∈ Join.names p.selection.joins := by
      by_contra hnot
      exact hcaptured (hfree.1 hnot)
    obtain ⟨j, hj, hsources⟩ := Query.sources_of_mem hmade.nodup_names hmem
    refine ⟨j, hj, ?_⟩
    rw [hsources, if_pos htable.symm]
    rfl

/-- The relation `manager` leads back to the root entity, and `teams` has the name of its own
    table: the joins are visible as `manager` and `teams`, and `users` is the root table. -/
theorem compile_rootName_iff_rootApart_manager :
    let user : ClassMap := { ClassMap.ofTable "users" with
      relationships := .ofList [("manager", .ofOne "User" "manager_id" "id"),
        ("teams", .ofMany "Team" "id" "user_id")] }
    let schema : Schema := .ofList [("User", user), ("Team", .ofTable "teams")]
    let q := (((EntityQuery.of "User").filterValue "manager.name" "=" (.string "Ada")
      ).filterValue "teams.name" "=" (.string "core")).filterValue "name" "=" (.string "Bob")
    ∃ c, compile schema.inspector q none = .ok c ∧ c.query.table = "users" ∧
      c.query.joins.map (fun j => (j.table, j.aliasName)) =
        [("users", some "manager"), ("teams", none)] ∧
      c.query.sources "users" = [.table] := by
  intro user schema q
  have hview : (compile schema.inspector q none).map (fun c => (c.query.table,
      c.query.joins.map (fun j => (j.table, j.aliasName)), Join.names c.query.joins)) =
      .ok ("users", [("users", some "manager"), ("teams", none)], ["manager", "teams"]) := by
    decide +kernel
  obtain ⟨c, hc, hparts⟩ := Outcome.map_eq_ok_iff.1 hview
  obtain ⟨htable, hrest⟩ := Prod.mk.inj hparts
  obtain ⟨hjoins, hnames⟩ := Prod.mk.inj hrest
  obtain ⟨-, -, hiff, happart, -⟩ := compile_rootName_iff_rootApart schema.inspector q hc
  refine ⟨c, hc, htable, hjoins, ?_⟩
  -- no join is visible under the name of the root table
  have hfree : ∀ j ∈ c.query.joins, j.visibleName ≠ c.query.table := by
    intro j hj
    have hmem : j.visibleName ∈ Join.names c.query.joins := List.mem_map_of_mem hj
    rw [hnames] at hmem
    rw [htable]
    rcases List.mem_pair.1 hmem with h | h <;> rw [h] <;> decide
  rw [← htable]
  exact (happart (hiff.1 hfree)).1

/-- A user's relation `users` to those who were invited is joined under the name of the root
    table, since it is the name of its own table too. The condition on the name of the user and
    that on the names of the invited ones are on the same key, which has two sources. -/
theorem compile_captures_rootName :
    let user : ClassMap := { ClassMap.ofTable "users" with
      relationships := .ofList [("users", .ofMany "User" "id" "inviter_id")] }
    let schema : Schema := .ofList [("User", user)]
    let q := ((EntityQuery.of "User").filterValue "users.name" "=" (.string "Ada")
      ).filterValue "name" "=" (.string "Bob")
    ∃ c j, compile schema.inspector q none = .ok c ∧ c.query.table = "users" ∧
      c.query.joins = [j] ∧ j.visibleName = c.query.table ∧
      c.query.conditions.predicates.map Predicate.left = [.key "users.name", .key "users.name"] ∧
      c.query.sources "users" = [.table, .join j] := by
  intro user schema q
  have hview : (compile schema.inspector q none).map (fun c => (c.query.table,
      c.query.joins.map Join.visibleName, c.query.conditions.predicates.map Predicate.left)) =
      .ok ("users", ["users"], [.key "users.name", .key "users.name"]) := by
    decide +kernel
  obtain ⟨c, hc, hparts⟩ := Outcome.map_eq_ok_iff.1 hview
  obtain ⟨htable, hrest⟩ := Prod.mk.inj hparts
  obtain ⟨hnames, hkeys⟩ := Prod.mk.inj hrest
  obtain ⟨j, hjoins, hname⟩ := List.map_eq_singleton_iff.1 hnames
  refine ⟨c, j, hc, htable, hjoins, hname.trans htable.symm, hkeys, ?_⟩
  -- the table and the one join are both sources
  unfold Query.sources
  rw [hjoins, htable]
  simp [hname]

end EntitySql
