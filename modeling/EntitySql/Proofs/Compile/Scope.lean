import EntitySql.Proofs.Compile.Joins
import EntitySql.Proofs.Condition.Traversal

/-! # Scope of a compiled query

    A name is *in scope* of a table and joins if it is a column of the table or
    of one of the joins, by the names under which these are visible. In a
    *closed* query all keys are in scope, and those in the condition of a join
    are in scope of the joins up to this one.

    Every alias that the compiler writes is that of an entry of the relation
    map. The joins of an entry are added after those of its parent, so that the
    alias of the parent is visible by then; and a join is only left out if its
    name is visible already.
-/

namespace EntitySql

/-! ## Keys -/

/-- The names that a predicate compares: key operands, and a string that is marked as a key. -/
def Predicate.keys (p : Predicate) : List String :=
  let left := match p.left with
    | .key n => [n]
    | _ => []
  let right := match p.right, p.rightIsKey with
    | .key n, _ => [n]
    | .value (.string n), true => [n]
    | _, _ => []
  left ++ right

theorem Predicate.mem_keys_iff {p : Predicate} {key : String} :
    key ∈ p.keys ↔ p.left = .key key ∨ p.right = .key key ∨
      p.right = .value (.string key) ∧ p.rightIsKey = true := by
  obtain ⟨left, op, right, isKey⟩ := p
  -- left and right side apart, each by the form of its operand
  have hleft : (key ∈ match left with | .key n => [n] | _ => []) ↔ left = .key key := by
    cases left <;> simp [eq_comm]
  have hright : (key ∈ match right, isKey with
      | .key n, _ => [n]
      | .value (.string n), true => [n]
      | _, _ => []) ↔
      right = .key key ∨ right = .value (.string key) ∧ isKey = true := by
    cases right with
    | value v => cases v <;> cases isKey <;> simp [eq_comm]
    | _ => cases isKey <;> simp [eq_comm]
  show key ∈ _ ++ _ ↔ _
  rw [List.mem_append]
  exact or_congr hleft hright

def ConditionGroup.keys (g : ConditionGroup) : List String := g.predicates.flatMap Predicate.keys

/-- The name is a column of the table or of one of the joins. -/
def InScope (table : String) (js : List Join) (key : String) : Prop :=
  ∃ name column, (name = table ∨ name ∈ Join.names js) ∧ key = qualified name column

/-- The column is selected by a name that is in scope. -/
def ColumnInScope (table : String) (js : List Join) (e : Expression) : Prop :=
  ∃ key a, e = .key key a ∧ InScope table js key

/-- All keys are in scope, and those of a join in that of the joins up to it. -/
structure Query.Closed (q : Query) : Prop where
  columns : ∀ e ∈ q.columns, ColumnInScope q.table q.joins e
  orderBys : ∀ key ∈ q.orderBys.keys, InScope q.table q.joins key
  conditions : ∀ key ∈ q.conditions.keys, InScope q.table q.joins key
  joins : ∀ i j, q.joins[i]? = some j →
    ∀ key ∈ j.conditions.keys, InScope q.table (q.joins.take (i + 1)) key

section scope

variable {table name : String} {js : List Join}

theorem inScope_table (table column : String) (js : List Join) :
    InScope table js (qualified table column) := ⟨table, column, Or.inl rfl, rfl⟩

theorem inScope_of_mem (h : name ∈ Join.names js) (column : String) :
    InScope table js (qualified name column) := ⟨name, column, Or.inr h, rfl⟩

/-! ## Joins in order -/

/-- The keys in the condition of each join are in scope of the joins up to this one. -/
def Join.InOrder (table : String) (js : List Join) : Prop :=
  ∀ i j, js[i]? = some j → ∀ key ∈ j.conditions.keys, InScope table (js.take (i + 1)) key

theorem Join.inOrder_nil (table : String) : InOrder table [] := by
  intro i j hj
  exact absurd hj (by simp)

/-- A join can be put at the end if its keys are in scope there. -/
theorem Join.InOrder.append_singleton {j : Join} (h : InOrder table js)
    (hj : ∀ key ∈ j.conditions.keys, InScope table (js ++ [j]) key) :
    InOrder table (js ++ [j]) := by
  intro i k hk
  by_cases hi : i < js.length
  · rw [List.getElem?_append_left hi] at hk
    rw [List.take_append_of_le_length hi]
    exact h i k hk
  · -- the last join, of which all others are in scope
    have hlen : i < (js ++ [j]).length := (List.getElem?_eq_some_iff.1 hk).1
    have hlast : i = js.length := by
      rw [List.length_append, List.length_singleton] at hlen
      omega
    subst hlast
    rw [List.getElem?_concat_length] at hk
    obtain rfl := Option.some.inj hk
    have hall : (js ++ [j]).take (js.length + 1) = js ++ [j] := by
      rw [List.take_of_length_le]
      simp
    rw [hall]
    exact hj

/-- So it is when the join may also be left out because its name is visible. -/
theorem Join.InOrder.addJoin {j : Join} (h : InOrder table js)
    (hj : ∀ key ∈ j.conditions.keys, InScope table (js ++ [j]) key) :
    InOrder table (Plan.addJoin js j) := by
  by_cases hname : j.visibleName ∈ names js
  · rw [Plan.addJoin_of_mem hname]
    exact h
  · rw [Plan.addJoin_of_not_mem hname]
    exact h.append_singleton hj

/-- The keys of a join on one comparison are its two sides. -/
theorem Join.Links.keys {j : Join} {left right : String} (h : j.Links table name left right) :
    j.conditions.keys = [left, right] := by
  rw [h.conditions]
  rfl

/-- A join that links two visible names leaves the joins in order. -/
theorem Join.InOrder.link {j : Join} {related ownerName ownerKey relatedKey : String}
    (h : InOrder table js) (howner : ownerName = table ∨ ownerName ∈ names js)
    (hj : j.Links related name (qualified ownerName ownerKey) (qualified name relatedKey)) :
    InOrder table (Plan.addJoin js j) := by
  apply h.addJoin
  -- the owner is in scope already, and the related name comes with the join itself
  have hleft : InScope table (js ++ [j]) (qualified ownerName ownerKey) := by
    refine ⟨ownerName, ownerKey, howner.imp_right fun hmem => ?_, rfl⟩
    rw [names_append]
    exact List.mem_append_left _ hmem
  have hright : InScope table (js ++ [j]) (qualified name relatedKey) := by
    apply inScope_of_mem
    rw [names_append, names_single, hj.visibleName]
    exact List.mem_append_right _ (List.mem_singleton_self name)
  rw [hj.keys]
  exact List.forall_mem_cons.2 ⟨hleft, List.forall_mem_singleton.2 hright⟩

end scope

/-! ## The joins of the relation map -/

section entries

variable {inspector : Inspector} {entity root : String}

/-- The joins of an entry leave the joins in order, if the table of its owner is visible. -/
theorem inOrder_foldl_of_joinedBy {e : RelationEntry} {acc js : List Join}
    (hacc : Join.InOrder root acc)
    (howner : e.ownerName root = root ∨ e.ownerName root ∈ Join.names acc)
    (h : e.JoinedBy inspector root js) : Join.InOrder root (js.foldl Plan.addJoin acc) := by
  cases h with
  | direct _ _ hjoin => exact hacc.link howner hjoin
  | @through _ _ _ pivot j _ _ _ hpivot hjoin =>
    -- the junction is visible by now, even if its join has been left out
    have hvisible : e.pivotName ∈ Join.names (Plan.addJoin acc pivot) :=
      Plan.mem_names_addJoin.2 (Or.inr hpivot.visibleName.symm)
    exact (hacc.link howner hpivot).link (Or.inr hvisible) hjoin

/-- After the entries of a map whose aliases are visible, the joins of further entries can be
    added in the order of their resolution. -/
theorem inOrder_foldl_of_resolvedAfter {m : RelationMap} {es : List RelationEntry}
    {own : List (List Join)} {acc : List Join} (hacc : Join.InOrder root acc)
    (hm : ∀ e ∈ m.entries, RelationPath.aliasOf e.path ∈ Join.names acc)
    (hes : RelationMap.ResolvedAfter inspector entity m es)
    (hown : List.Forall₂ (fun e js => e.JoinedBy inspector root js) es own) :
    Join.InOrder root (own.flatten.foldl Plan.addJoin acc) := by
  induction hown generalizing m acc with
  | nil => exact hacc
  | @cons e js es own hjs _ ih =>
    obtain ⟨he, hes⟩ := hes
    -- the owner is the root table or an entry of the map
    have howner : e.ownerName root = root ∨ e.ownerName root ∈ Join.names acc := by
      unfold RelationEntry.ownerName
      cases hparent : e.parent? with
      | none => exact Or.inl rfl
      | some parent =>
        obtain ⟨f, hf, rfl, -⟩ := RelationMap.exists_parent_of_ownerOf he.owner hparent
        exact Or.inr (hm f hf)
    rw [List.flatten_cons, List.foldl_append]
    -- the aliases of the map stay visible, and that of the entry is visible too
    refine ih (inOrder_foldl_of_joinedBy hacc howner hjs) ?_ hes
    intro f hf
    rw [Plan.mem_names_foldl_addJoin]
    rcases List.mem_append.1 hf with hf | hf
    · exact Or.inl (hm f hf)
    · obtain rfl := List.mem_singleton.1 hf
      right
      rw [hjs.names, ← he.aliasName]
      exact f.aliasName_mem_joinNames

end entries

/-! ## Keys of a plan -/

section keys

variable {inspector : Inspector} {root : String} {m : RelationMap} {js : List Join}

/-- A column path is resolved to a column of the root table or of an alias of the map. -/
theorem inScope_resolveKey (hm : ∀ e ∈ m.entries, e.aliasName ∈ Join.names js)
    {path key : String} (h : resolveKey root m path = .ok key) : InScope root js key := by
  unfold resolveKey at h
  dsimp only at h
  -- a column of the root table, or one of a relation whose alias is joined
  by_cases hroot : (RelationPath.splitColumn path).1 = ""
  · rw [if_pos hroot] at h
    obtain rfl := Except.ok.inj h
    exact inScope_table root _ js
  · rw [if_neg hroot] at h
    obtain ⟨a, ha, rfl⟩ := Outcome.map_eq_ok_iff.1 h
    obtain ⟨e, he, rfl⟩ := Outcome.map_eq_ok_iff.1 ha
    exact inScope_of_mem (hm e (RelationMap.entry_eq_ok he).1) _

/-- A key operand that comes out of resolution is in scope. -/
theorem inScope_resolveOperand (hm : ∀ e ∈ m.entries, e.aliasName ∈ Join.names js)
    {o : Operand} {key : String} (h : resolveOperand root m o = .ok (.key key)) :
    InScope root js key := by
  cases o with
  | key path =>
    obtain ⟨k, hk, hkey⟩ := Outcome.map_eq_ok_iff.1 h
    obtain rfl := Operand.key.inj hkey
    exact inScope_resolveKey hm hk
  | _ => exact absurd (Except.ok.inj h) nofun

/-- What becomes of a right side: the key or the marked string that it is has been resolved, or it
    is neither and stays. -/
theorem resolveRight_cases {p : Predicate} {right : Operand}
    (h : resolveRight root m p = .ok right) :
    (∃ path key, p.right = .key path ∧ resolveKey root m path = .ok key ∧ right = .key key) ∨
      (∃ path key, p.right = .value (.string path) ∧ p.rightIsKey = true ∧
        resolveKey root m path = .ok key ∧ right = .value (.string key)) ∨
      (∀ path, p.right ≠ .key path ∧ ¬ (p.right = .value (.string path) ∧ p.rightIsKey = true)) ∧
        right = p.right := by
  unfold resolveRight at h
  split at h
  · next path hright hisKey =>
    obtain ⟨key, hkey, rfl⟩ := Outcome.map_eq_ok_iff.1 h
    exact Or.inr (Or.inl ⟨path, key, hright, hisKey, hkey, rfl⟩)
  · next hmarked =>
    -- a right side that is not marked is resolved if it is a key
    cases hright : p.right with
    | key path =>
      rw [hright] at h
      obtain ⟨key, hkey, rfl⟩ := Outcome.map_eq_ok_iff.1 h
      exact Or.inl ⟨path, key, rfl, hkey, rfl⟩
    | _ =>
      rw [hright] at h hmarked
      refine Or.inr (Or.inr ⟨fun path => ⟨nofun, fun hpath => ?_⟩, (Except.ok.inj h).symm⟩)
      exact hmarked path hpath.1 hpath.2

/-- So is a string on the right side that is marked as a key. -/
theorem inScope_resolveRight (hm : ∀ e ∈ m.entries, e.aliasName ∈ Join.names js)
    {p : Predicate} {right : Operand} (h : resolveRight root m p = .ok right) {key : String}
    (hkey : right = .key key ∨ right = .value (.string key) ∧ p.rightIsKey = true) :
    InScope root js key := by
  -- a key or a marked string has been resolved, and any other operand is no key
  obtain ⟨path, k, -, hk, rfl⟩ | ⟨path, k, -, -, hk, rfl⟩ | ⟨hneither, rfl⟩ :=
    resolveRight_cases h
  · obtain hkey | hkey := hkey
    · obtain rfl := Operand.key.inj hkey
      exact inScope_resolveKey hm hk
    · exact absurd hkey.1 nofun
  · obtain hkey | hkey := hkey
    · exact absurd hkey nofun
    · obtain rfl := Param.string.inj (Operand.value.inj hkey.1)
      exact inScope_resolveKey hm hk
  · obtain ⟨hnokey, hunmarked⟩ := hneither key
    obtain hkey | hkey := hkey
    · exact absurd hkey hnokey
    · exact absurd hkey hunmarked

/-- The keys of a resolved predicate are in scope. -/
theorem inScope_resolvePredicate (hm : ∀ e ∈ m.entries, e.aliasName ∈ Join.names js)
    {p p' : Predicate} (h : resolvePredicate root m p = .ok p') :
    ∀ key ∈ p'.keys, InScope root js key := by
  obtain ⟨left, hleft, h⟩ := Outcome.bind_eq_ok_iff.1 h
  obtain ⟨right, hright, h⟩ := Outcome.bind_eq_ok_iff.1 h
  obtain rfl := Outcome.pure_eq_ok_iff.1 h
  intro key hkey
  rcases Predicate.mem_keys_iff.1 hkey with rfl | hkey
  · exact inScope_resolveOperand hm hleft
  · exact inScope_resolveRight hm hright hkey

/-- The columns of the root table are in scope. -/
theorem inScope_rootColumns {entity : String} {columns : List Expression}
    (h : rootColumns inspector entity root = .ok columns) :
    ∀ e ∈ columns, ColumnInScope root js e := by
  obtain ⟨primaryKey, -, h⟩ := Outcome.bind_eq_ok_iff.1 h
  obtain ⟨keys, -, h⟩ := Outcome.bind_eq_ok_iff.1 h
  intro e he
  dsimp only at h
  -- the star stands for all columns if none is declared
  split at h
  · obtain rfl := Outcome.pure_eq_ok_iff.1 h
    obtain rfl := List.mem_singleton.1 he
    exact ⟨_, _, rfl, inScope_table root "*" js⟩
  · obtain rfl := Outcome.pure_eq_ok_iff.1 h
    obtain ⟨column, -, rfl⟩ := List.mem_map.1 he
    exact ⟨_, _, rfl, inScope_table root column js⟩

/-- So are those of a relation whose alias is visible. -/
theorem inScope_relationColumns {e : RelationEntry} {columns : List Expression}
    (he : e.aliasName ∈ Join.names js) (h : relationColumns inspector e = .ok columns) :
    ∀ x ∈ columns, ColumnInScope root js x := by
  obtain ⟨keys, -, h⟩ := Outcome.bind_eq_ok_iff.1 h
  obtain rfl := Outcome.pure_eq_ok_iff.1 h
  intro x hx
  obtain ⟨column, -, rfl⟩ := List.mem_map.1 hx
  exact ⟨_, _, rfl, inScope_of_mem he column⟩

/-- Loading relations along a path adds columns that are in scope. -/
theorem inScope_along (hm : ∀ e ∈ m.entries, e.aliasName ∈ Join.names js)
    {l l' : Loading} {paths : List String} (h : Loading.along inspector m l paths = .ok l')
    (hl : ∀ x ∈ l.columns, ColumnInScope root js x) :
    ∀ x ∈ l'.columns, ColumnInScope root js x := by
  induction paths generalizing l with
  | nil =>
    obtain rfl := Except.ok.inj h
    exact hl
  | cons path rest ih =>
    obtain ⟨e, he, h⟩ := Outcome.bind_eq_ok_iff.1 h
    -- only a relation that is loaded for the first time adds columns
    by_cases hmany : e.isToMany = true
    · rw [if_pos hmany] at h
      obtain rfl := Outcome.pure_eq_ok_iff.1 h
      intro x hx
      apply hl
      unfold Loading.defer at hx
      split at hx <;> exact hx
    · rw [if_neg hmany] at h
      by_cases hloaded : path ∈ l.loaded
      · rw [if_pos hloaded] at h
        exact ih h hl
      · rw [if_neg hloaded] at h
        obtain ⟨columns, hcolumns, h⟩ := Outcome.bind_eq_ok_iff.1 h
        have hvisible := hm e (RelationMap.entry_eq_ok he).1
        refine ih h fun x hx => ?_
        rcases List.mem_append.1 hx with hx | hx
        · exact hl x hx
        · exact inScope_relationColumns hvisible hcolumns x hx

/-- So does loading along all paths. -/
theorem inScope_ofPaths (hm : ∀ e ∈ m.entries, e.aliasName ∈ Join.names js)
    {l : Loading} {paths : List String} (h : Loading.ofPaths inspector m paths = .ok l) :
    ∀ x ∈ l.columns, ColumnInScope root js x := by
  refine Outcome.foldlM_induct (P := fun l => ∀ x ∈ l.columns, ColumnInScope root js x) ?_ ?_ h
  · intro l path l' hl hpath
    exact inScope_along hm hpath hl
  · intro x hx
    exact absurd hx List.not_mem_nil

end keys

/-! ## Putting a plan into a selection -/

/-- The columns come from the query or are among the added ones. -/
theorem Query.mem_columns_foldl_addColumn {e : Expression} {columns : List Expression} {q : Query}
    (h : e ∈ (columns.foldl addColumn q).columns) : e ∈ q.columns ∨ e ∈ columns := by
  induction columns generalizing q with
  | nil => exact Or.inl h
  | cons column columns ih =>
    rcases ih h with h | h
    · unfold addColumn at h
      -- a column that is there already is not selected again
      split at h
      · exact Or.inl h
      · rcases List.mem_append.1 h with h | h
        · exact Or.inl h
        · exact Or.inr (List.mem_cons.2 (Or.inl (List.mem_singleton.1 h)))
    · exact Or.inr (List.mem_cons_of_mem _ h)

theorem Plan.sortKeys_selection (p : Plan) :
    p.selection.orderBys.keys = (p.orderBys.map Prod.fst).foldl (addFresh id) [] :=
  OrderedMap.keys_foldl_insert .empty p.orderBys

/-- The predicates of the selection are those of the plan. -/
theorem Plan.predicates_selection (p : Plan) :
    p.selection.conditions.predicates = p.conditions.predicates := by
  have hconditions : p.selection.conditions =
      if p.conditions.isEmpty then .and else p.conditions := rfl
  rw [hconditions]
  split
  · next hempty =>
    -- nothing is put into the selection, and there is nothing to put
    have hnone : p.conditions.toCondition.predicates = [] :=
      Condition.predicates_of_isEmpty hempty
    exact hnone.symm
  · rfl

/-! ## Closed queries -/

namespace Plan.Made

variable {inspector : Inspector} {q : EntityQuery} {columns : List Expression}
  {paths : List String} {loading : Loading} {own : List (List Join)} {p : Plan}

/-- The alias of each entry is visible, also if a join has been left out for it. -/
theorem aliasName_mem_names (h : Made inspector q columns paths loading own p) :
    ∀ e ∈ p.relationMap.entries, e.aliasName ∈ Join.names p.selection.joins := by
  intro e he
  exact h.mem_names_iff.2 ⟨e, he, e.aliasName_mem_joinNames⟩

/-- The columns that the plan asks for are in scope. -/
theorem inScope_planned (h : Made inspector q columns paths loading own p) :
    ∀ e ∈ p.columns, ColumnInScope p.table p.selection.joins e := by
  intro e he
  rw [h.columns_eq] at he
  rcases List.mem_append.1 he with he | he
  · exact inScope_rootColumns h.rootColumns e he
  · exact inScope_ofPaths h.aliasName_mem_names h.ofPaths e he

theorem inScope_columns (h : Made inspector q columns paths loading own p) :
    ∀ e ∈ p.selection.columns, ColumnInScope p.table p.selection.joins e := by
  intro e he
  rcases Query.mem_columns_foldl_addColumn he with he | he
  · exact absurd he List.not_mem_nil
  · exact h.inScope_planned e he

theorem inScope_orderBys (h : Made inspector q columns paths loading own p) :
    ∀ key ∈ p.selection.orderBys.keys, InScope p.table p.selection.joins key := by
  intro key hkey
  rw [p.sortKeys_selection] at hkey
  have hplanned : key ∈ p.orderBys.map Prod.fst :=
    (foldl_addFresh_sublist id [] _).subset hkey
  obtain ⟨e, he, rfl⟩ := List.mem_map.1 hplanned
  obtain ⟨e', -, hresolve⟩ := Outcome.exists_of_mem_mapM h.resolveKeys he
  obtain ⟨k, hk, rfl⟩ := Outcome.map_eq_ok_iff.1 hresolve
  exact inScope_resolveKey h.aliasName_mem_names hk

theorem inScope_conditions (h : Made inspector q columns paths loading own p) :
    ∀ key ∈ p.selection.conditions.keys, InScope p.table p.selection.joins key := by
  intro key hkey
  obtain ⟨x, hx, hkey⟩ := List.mem_flatMap.1 hkey
  rw [p.predicates_selection] at hx
  obtain ⟨x', -, hresolve⟩ := ConditionGroup.exists_of_mem_mapPredicates h.mapPredicates hx
  exact inScope_resolvePredicate h.aliasName_mem_names hresolve key hkey

theorem inOrder_joins (h : Made inspector q columns paths loading own p) :
    Join.InOrder p.table p.selection.joins := by
  have hresolved := (RelationMap.resolve_eq_ok_iff.1 h.resolve).1
  have hstart : ∀ e ∈ RelationMap.empty.entries, RelationPath.aliasOf e.path ∈ Join.names [] :=
    fun e he => absurd he List.not_mem_nil
  rw [h.joins_selection]
  exact inOrder_foldl_of_resolvedAfter (Join.inOrder_nil p.table) hstart hresolved h.joinedBy

end Plan.Made

/-- A compiled query is closed: all keys that the compiler writes are columns of the root table or
    of a join, and those in the condition of a join are columns of the root table or of a join
    that is not after it. -/
theorem compile_closed (inspector : Inspector) (q : EntityQuery) {c : Compilation}
    (h : compile inspector q none = .ok c) :
    inspector.storageName q.entity = .ok c.query.table ∧ c.query.Closed := by
  obtain ⟨columns, paths, loading, own, p, hmade, rfl⟩ := exists_made_of_compile h
  have htable := p.table_selection
  -- one lemma for each part of the query
  refine ⟨?_, ?_, ?_, ?_, ?_⟩
  · rw [htable]
    exact hmade.storageName
  · rw [htable]
    exact hmade.inScope_columns
  · rw [htable]
    exact hmade.inScope_orderBys
  · rw [htable]
    exact hmade.inScope_conditions
  · rw [htable]
    exact hmade.inOrder_joins

/-- The relation `groups_pivot` has the name of the junction of `groups`: its join is left out,
    and its keys are still in scope. -/
theorem compile_closed_pivot :
    let user : ClassMap := { ClassMap.ofTable "users" with
      relationships := .ofList [
        ("groups", .through "Group" "id" "id" ⟨.entity "Member", "user_id", "group_id"⟩),
        ("groups_pivot", .ofMany "Member" "id" "user_id")] }
    let schema : Schema := .ofList
      [("User", user), ("Group", .ofTable "groups"), ("Member", .ofTable "members")]
    let q := ((EntityQuery.of "User").filterValue "groups_pivot.role" "=" (.string "owner")
      ).orderBy "groups.name" .asc
    ∃ c, compile schema.inspector q none = .ok c ∧
      c.relationMap.entries.map RelationEntry.aliasName = ["groups", "groups_pivot"] ∧
      Join.names c.query.joins = ["groups_pivot", "groups"] ∧ c.query.Closed := by
  intro user schema q
  have hview : (compile schema.inspector q none).map (fun c =>
      (c.relationMap.entries.map RelationEntry.aliasName, Join.names c.query.joins)) =
      .ok (["groups", "groups_pivot"], ["groups_pivot", "groups"]) := by
    decide +kernel
  obtain ⟨c, hc, hparts⟩ := Outcome.map_eq_ok_iff.1 hview
  obtain ⟨hentries, hjoins⟩ := Prod.mk.inj hparts
  exact ⟨c, hc, hentries, hjoins, (compile_closed schema.inspector q hc).2⟩

end EntitySql
