import EntitySql.Proofs.Compile.Scope
import EntitySql.Proofs.Relation.Characterization

/-! # Where compilation fails

    A schema is *closed* if the entities that its relationships lead to or go
    through are declared. Against such a schema three things can go wrong, and
    they are found out in this order: the root entity is not declared, a right
    side is marked as a key and is none, or the relation paths that the query
    mentions cannot be resolved.

    All that is looked up later has been found by then. The relation map
    *covers* the query: it has the relation paths of all keys, the prefixes of
    the paths to load along and the parents of its own paths. The entities that
    its entries lead to are declared, since the schema is closed.
-/

namespace EntitySql

/-! ## Closed schemas -/

/-- The entity that a junction is stored as is declared, if it is one. -/
def JunctionTarget.DeclaredIn (s : Schema) : JunctionTarget → Prop
  | table _ => True
  | entity name => name ∈ s.keys

/-- The entities that a relationship leads to and goes through are declared. -/
structure Relationship.DeclaredIn (s : Schema) (r : Relationship) : Prop where
  related : r.related ∈ s.keys
  junction : ∀ j ∈ r.junction, j.target.DeclaredIn s

/-- So they are for each relationship of each entity. -/
def Schema.Closed (s : Schema) : Prop :=
  ∀ m ∈ s.values, ∀ r ∈ m.relationships.values, r.DeclaredIn s

instance (s : Schema) (t : JunctionTarget) : Decidable (t.DeclaredIn s) :=
  match t with
  | .table _ => isTrue trivial
  | .entity name => inferInstanceAs (Decidable (name ∈ s.keys))

instance (s : Schema) (r : Relationship) : Decidable (r.DeclaredIn s) :=
  decidable_of_iff (r.related ∈ s.keys ∧ ∀ j ∈ r.junction, j.target.DeclaredIn s)
    ⟨fun h => ⟨h.1, h.2⟩, fun h => ⟨h.related, h.junction⟩⟩

instance (s : Schema) : Decidable s.Closed :=
  inferInstanceAs (Decidable (∀ m ∈ s.values, ∀ r ∈ m.relationships.values, r.DeclaredIn s))

namespace Schema

variable {s : Schema} {entity : String}

theorem classMap_eq_ok_iff {m : ClassMap} :
    s.classMap entity = .ok m ↔ OrderedMap.get? s entity = some m := by
  unfold classMap
  cases OrderedMap.get? s entity <;> simp

/-- The entities that are declared are those with a class map. -/
theorem exists_classMap_iff : (∃ m, s.classMap entity = .ok m) ↔ entity ∈ s.keys := by
  have hmissing : OrderedMap.get? s entity = none ↔ entity ∉ s.keys := OrderedMap.get?_eq_none_iff
  rw [← not_iff_not, ← hmissing, Option.eq_none_iff_forall_ne_some, not_exists]
  exact forall_congr' fun m => not_congr classMap_eq_ok_iff

/-- An entity that is not declared has no class map. -/
theorem classMap_of_not_mem (h : entity ∉ s.keys) :
    s.classMap entity = .error (.entityNotFound entity) := by
  unfold classMap
  rw [OrderedMap.get?_eq_none_iff.2 h]

/-- All that is asked of an entity that is declared is answered. -/
theorem exists_answer {α : Type} (h : entity ∈ s.keys) (answer : ClassMap → α) :
    ∃ a, (s.classMap entity).map answer = .ok a := by
  obtain ⟨m, hm⟩ := exists_classMap_iff.2 h
  exact ⟨answer m, Outcome.map_eq_ok_iff.2 ⟨m, hm, rfl⟩⟩

theorem exists_storageName (h : entity ∈ s.keys) :
    ∃ table, s.inspector.storageName entity = .ok table := exists_answer h _

theorem exists_keys (h : entity ∈ s.keys) : ∃ keys, s.inspector.keys entity = .ok keys :=
  exists_answer h _

theorem exists_primaryKey (h : entity ∈ s.keys) :
    ∃ keys, s.inspector.primaryKey entity = .ok keys := exists_answer h _

/-- A relationship that is found belongs to an entity of the schema. -/
theorem Closed.declaredIn (hs : s.Closed) {name : String} {r : Relationship}
    (h : s.inspector.relationship entity name = .ok (some r)) : r.DeclaredIn s := by
  obtain ⟨m, hm, hr⟩ := Outcome.map_eq_ok_iff.1 h
  have hentity := OrderedMap.mem_values_of_get? (classMap_eq_ok_iff.1 hm)
  exact hs m hentity r (OrderedMap.mem_values_of_get? hr)

end Schema

/-! ## Mentioned paths -/

namespace EntityQuery

/-- The relation paths of the keys in the conditions and of the sort keys, and the paths to load
    along. -/
def mentioned (q : EntityQuery) : List String :=
  (q.conditions.keys ++ q.orderBys.keys).flatMap relationPaths ++ q.eager

/-- The keys of a predicate are one on the left side, if there is one, and that of the right. -/
theorem keys_eq_of_rightKey {p : Predicate} {key : Option String} (h : p.rightKey = .ok key) :
    p.keys = (match p.left with | .key n => [n] | _ => []) ++ key.toList := by
  obtain ⟨left, op, right, isKey⟩ := p
  unfold Predicate.keys
  refine congrArg (_ ++ ·) ?_
  -- one case for each kind of right side, with and without the mark
  cases right with
  | key name =>
    obtain rfl := Except.ok.inj h
    rfl
  | value v =>
    cases isKey with
    | false =>
      obtain rfl : none = key := by cases v <;> exact Except.ok.inj h
      cases v <;> rfl
    | true =>
      cases v with
      | string name =>
        obtain rfl := Except.ok.inj h
        rfl
      | _ => exact absurd h nofun
  | expression e =>
    obtain rfl : none = key := by cases isKey <;> exact Except.ok.inj h
    rfl
  | list ps =>
    cases isKey with
    | false =>
      obtain rfl := Except.ok.inj h
      rfl
    | true => exact absurd h nofun

/-- A predicate mentions the relation paths of its keys, unless its right side is in error. -/
theorem predicatePaths_eq (p : Predicate) :
    predicatePaths p = p.rightKey.map fun _ => p.keys.flatMap relationPaths := by
  have hleft : (match p.left with | .key name => relationPaths name | _ => []) =
      (match p.left with | .key n => [n] | _ => []).flatMap relationPaths := by
    cases p.left <;> simp
  unfold predicatePaths
  -- an error in the right side is that of the paths, whatever the left side is
  cases hkey : p.rightKey with
  | error e => rfl
  | ok key =>
    rw [keys_eq_of_rightKey hkey, List.flatMap_append, ← hleft]
    cases key with
    | none => exact congrArg Except.ok (List.append_nil _).symm
    | some name => exact congrArg (fun paths => Except.ok (_ ++ paths)) (List.append_nil _).symm

/-- What a query mentions is found unless a right side is in error. -/
theorem relationPathsOf_eq (q : EntityQuery) :
    q.relationPathsOf =
      (q.conditions.predicates.mapM Predicate.rightKey).map fun _ => q.mentioned := by
  -- no predicate adds an error to that of its right side
  have hpredicates : q.conditions.predicates.mapM predicatePaths =
      (q.conditions.predicates.mapM Predicate.rightKey).map fun _ =>
        q.conditions.predicates.map fun p => p.keys.flatMap relationPaths := by
    rw [← Outcome.mapM_map_const]
    exact congrArg (q.conditions.predicates.mapM ·) (funext predicatePaths_eq)
  have hmentioned : (q.conditions.predicates.map fun p => p.keys.flatMap relationPaths).flatten ++
      q.orderBys.keys.flatMap relationPaths ++ q.eager = q.mentioned := by
    rw [mentioned, ConditionGroup.keys, List.flatMap_append, List.flatMap_assoc, ← List.flatMap_def]
  unfold relationPathsOf
  rw [hpredicates, ← hmentioned]
  cases q.conditions.predicates.mapM Predicate.rightKey <;> rfl

end EntityQuery

/-! ## Maps that cover a query -/

/-- The map has all paths that are looked up for a query: those of its keys, what is to be loaded
    along, and the parents of its own paths. -/
structure RelationMap.Covers (m : RelationMap) (q : EntityQuery) : Prop where
  keys : ∀ key ∈ q.conditions.keys ++ q.orderBys.keys,
    ∀ path ∈ EntityQuery.relationPaths key, ∃ e, m.entry path = .ok e
  eager : ∀ path ∈ q.eager, ∀ p ∈ RelationPath.prefixes path, ∃ e, m.entry p = .ok e
  parents : ∀ e ∈ m.entries, ∀ parent, e.parent? = some parent → ∃ f, m.entry parent = .ok f

/-- What the paths that a query mentions are resolved to covers the query. -/
theorem RelationMap.covers_of_resolve {inspector : Inspector} {q : EntityQuery} {m : RelationMap}
    (h : resolve inspector q.entity q.mentioned = .ok m) : m.Covers q := by
  obtain ⟨hresolved, hpaths⟩ := resolve_eq_ok_iff.1 h
  refine ⟨?_, ?_, ?_⟩
  · intro key hkey path hpath
    have hmentioned : path ∈ q.mentioned :=
      List.mem_append_left _ (List.mem_flatMap.2 ⟨key, hkey, hpath⟩)
    -- only paths that are not empty are mentioned by keys
    have hne : path ≠ "" := by
      unfold EntityQuery.relationPaths at hpath
      dsimp only at hpath
      split at hpath
      · exact absurd hpath List.not_mem_nil
      · next hne => exact List.mem_singleton.1 hpath ▸ hne
    rw [exists_entry_iff, hpaths]
    exact RelationPath.mem_closure_iff.2 ⟨hne, path, hmentioned, .refl path⟩
  · intro path hpath p hp
    have hmentioned : path ∈ q.mentioned := List.mem_append_right _ hpath
    rw [exists_entry_iff, hpaths]
    exact RelationPath.mem_closure.2 ⟨path, hmentioned, hp⟩
  · intro e he parent hparent
    -- the parent has been resolved before the path
    obtain ⟨i, hi⟩ := List.getElem?_of_mem he
    obtain ⟨f, hf, hpath, -⟩ :=
      exists_parent_of_ownerOf (resolvedAfter_iff.1 hresolved i e hi).owner hparent
    rw [exists_entry_iff, ← hpath]
    exact List.mem_map_of_mem (List.mem_of_mem_take hf)

/-! ## Steps that succeed -/

section steps

variable {inspector : Inspector} {root : String} {m : RelationMap}

theorem exists_resolveKey (root : String) {key : String}
    (h : ∀ path ∈ EntityQuery.relationPaths key, ∃ e, m.entry path = .ok e) :
    ∃ k, resolveKey root m key = .ok k := by
  unfold resolveKey
  unfold EntityQuery.relationPaths at h
  dsimp only at h ⊢
  -- a key of the root table needs no entry
  by_cases hroot : (RelationPath.splitColumn key).1 = ""
  · rw [if_pos hroot]
    exact ⟨_, rfl⟩
  · rw [if_neg hroot] at h ⊢
    obtain ⟨e, he⟩ := h _ (List.mem_singleton_self _)
    exact ⟨_, Outcome.map_eq_ok_iff.2 ⟨_, Outcome.map_eq_ok_iff.2 ⟨e, he, rfl⟩, rfl⟩⟩

/-- An operand is resolved if it is no key, or the key of it is. -/
theorem exists_resolveOperand {o : Operand}
    (h : ∀ key, o = .key key → ∃ k, resolveKey root m key = .ok k) :
    ∃ o', resolveOperand root m o = .ok o' := by
  cases o with
  | key name =>
    obtain ⟨k, hk⟩ := h name rfl
    exact ⟨_, Outcome.map_eq_ok_iff.2 ⟨k, hk, rfl⟩⟩
  | _ => exact ⟨_, rfl⟩

/-- A predicate is resolved if its keys are. -/
theorem exists_resolvePredicate {p : Predicate}
    (h : ∀ key ∈ p.keys, ∃ k, resolveKey root m key = .ok k) :
    ∃ p', resolvePredicate root m p = .ok p' := by
  obtain ⟨left, hleft⟩ : ∃ left, resolveOperand root m p.left = .ok left := by
    apply exists_resolveOperand
    intro key hkey
    exact h key (Predicate.mem_keys_iff.2 (Or.inl hkey))
  obtain ⟨right, hright⟩ : ∃ right, resolveRight root m p = .ok right := by
    -- the right side is a marked string or an operand, and in both cases its key is among those
    -- known
    unfold resolveRight
    split
    · next name hname hmarked =>
      obtain ⟨k, hk⟩ := h name (Predicate.mem_keys_iff.2 (Or.inr (Or.inr ⟨hname, hmarked⟩)))
      exact ⟨_, Outcome.map_eq_ok_iff.2 ⟨k, hk, rfl⟩⟩
    · apply exists_resolveOperand
      intro key hkey
      exact h key (Predicate.mem_keys_iff.2 (Or.inr (Or.inl hkey)))
  exact ⟨_, Outcome.bind_eq_ok_iff.2 ⟨left, hleft, Outcome.bind_eq_ok_iff.2 ⟨right, hright, rfl⟩⟩⟩

/-- A group is traversed if each of its predicates has a replacement. -/
theorem exists_mapPredicates {f : Predicate → Except SqlError Predicate} {g : ConditionGroup}
    (h : ∀ p ∈ g.predicates, ∃ p', f p = .ok p') : ∃ g', g.mapPredicates f = .ok g' := by
  obtain ⟨ps, hps⟩ := Outcome.exists_mapM_eq_ok_iff.2 h
  rw [← ConditionGroup.predicates_mapPredicates] at hps
  obtain ⟨g', hg', -⟩ := Outcome.map_eq_ok_iff.1 hps
  exact ⟨g', hg'⟩

/-- Prefixes that have entries with known columns are loaded along. -/
theorem Loading.exists_along {l : Loading} {ps : List String}
    (h : ∀ p ∈ ps, ∃ e columns, m.entry p = .ok e ∧ relationColumns inspector e = .ok columns) :
    ∃ l', along inspector m l ps = .ok l' := by
  induction ps generalizing l with
  | nil => exact ⟨l, rfl⟩
  | cons p ps ih =>
    obtain ⟨⟨e, columns, he, hcolumns⟩, hrest⟩ := List.forall_mem_cons.1 h
    -- the walk stops at a relation that leads to many rows, passes over one that is loaded, and
    -- loads any other one
    have hstep : ∃ l', (if e.isToMany then pure (l.defer p)
        else if p ∈ l.loaded then along inspector m l ps
        else relationColumns inspector e >>= fun columns =>
          along inspector m (l.add p columns) ps) = .ok l' := by
      by_cases hmany : e.isToMany = true
      · rw [if_pos hmany]
        exact ⟨_, rfl⟩
      · rw [if_neg hmany]
        by_cases hloaded : p ∈ l.loaded
        · rw [if_pos hloaded]
          exact ih hrest
        · rw [if_neg hloaded]
          obtain ⟨l', hl'⟩ := ih (l := l.add p columns) hrest
          exact ⟨l', Outcome.bind_eq_ok_iff.2 ⟨columns, hcolumns, hl'⟩⟩
    obtain ⟨l', hl'⟩ := hstep
    exact ⟨l', Outcome.bind_eq_ok_iff.2 ⟨e, he, hl'⟩⟩

end steps

section declared

variable {s : Schema} {root : String} {m : RelationMap}

theorem exists_rootColumns (root : String) {entity : String} (h : entity ∈ s.keys) :
    ∃ columns, rootColumns s.inspector entity root = .ok columns := by
  obtain ⟨primaryKey, hprimaryKey⟩ := Schema.exists_primaryKey h
  obtain ⟨keys, hkeys⟩ := Schema.exists_keys h
  have hstep : ∃ columns : List Expression,
      (if (primaryKey ++ keys.filter fun k => !primaryKey.contains k).isEmpty then
        pure [.key (qualified root "*") none]
      else pure ((primaryKey ++ keys.filter fun k => !primaryKey.contains k).map fun c =>
        .key (qualified root c) none) : Except SqlError (List Expression)) = .ok columns := by
    -- with columns or without any, a list is made
    split <;> exact ⟨_, rfl⟩
  obtain ⟨columns, hcolumns⟩ := hstep
  exact ⟨columns, Outcome.bind_eq_ok_iff.2 ⟨primaryKey, hprimaryKey,
    Outcome.bind_eq_ok_iff.2 ⟨keys, hkeys, hcolumns⟩⟩⟩

/-- The columns of an entity that is declared are known. -/
theorem exists_relationColumns {e : RelationEntry} (h : e.relationship.DeclaredIn s) :
    ∃ columns, relationColumns s.inspector e = .ok columns := by
  obtain ⟨keys, hkeys⟩ := Schema.exists_keys h.related
  exact ⟨_, Outcome.bind_eq_ok_iff.2 ⟨keys, hkeys, rfl⟩⟩

/-- So is the table of a junction. -/
theorem exists_junctionTable {t : JunctionTarget} (h : t.DeclaredIn s) :
    ∃ table, junctionTable s.inspector t = .ok table := by
  cases t with
  | table name => exact ⟨name, rfl⟩
  | entity name => exact Schema.exists_storageName h

theorem exists_joinsFor {e : RelationEntry} (h : e.relationship.DeclaredIn s)
    (ownerAlias : String) : ∃ js, joinsFor s.inspector ownerAlias e = .ok js := by
  obtain ⟨table, htable⟩ := Schema.exists_storageName h.related
  unfold joinsFor
  dsimp only
  cases hjunction : e.relationship.junction with
  | none =>
    exact ⟨_, Outcome.bind_eq_ok_iff.2 ⟨table, htable, rfl⟩⟩
  | some j =>
    obtain ⟨pivotTable, hpivotTable⟩ := exists_junctionTable (h.junction j hjunction)
    exact ⟨_, Outcome.bind_eq_ok_iff.2 ⟨table, htable,
      Outcome.bind_eq_ok_iff.2 ⟨pivotTable, hpivotTable, rfl⟩⟩⟩

/-- An entry has its joins if what it leads to is declared and its parent has an entry. -/
theorem exists_entryJoins {e : RelationEntry} (h : e.relationship.DeclaredIn s)
    (hparent : ∀ parent, e.parent? = some parent → ∃ f, m.entry parent = .ok f) :
    ∃ js, entryJoins s.inspector root m e = .ok js := by
  unfold entryJoins
  -- the owner is the root table or the table of the parent, which has been resolved
  cases hpath : e.parent? with
  | none =>
    obtain ⟨js, hjs⟩ := exists_joinsFor h root
    exact ⟨js, hjs⟩
  | some parent =>
    obtain ⟨f, hf⟩ := hparent parent hpath
    obtain ⟨js, hjs⟩ := exists_joinsFor h f.aliasName
    have howner : m.aliasOf parent = .ok f.aliasName := Outcome.map_eq_ok_iff.2 ⟨f, hf, rfl⟩
    exact ⟨js, Outcome.bind_eq_ok_iff.2 ⟨f.aliasName, howner, hjs⟩⟩

end declared

/-! ## Faults of a query -/

/-- What is wrong with a query, by the first of three faults that it has. -/
inductive EntityQuery.FirstFault (s : Schema) (q : EntityQuery) : SqlError → Prop where
  /-- The root entity is not declared -/
  | entity (hentity : q.entity ∉ s.keys) : FirstFault s q (.entityNotFound q.entity)
  /-- It is declared, but some right side is marked as a key and is none -/
  | rightKey {e : SqlError} (hentity : q.entity ∈ s.keys)
      (hkeys : Outcome.FirstError Predicate.rightKey q.conditions.predicates e) :
      FirstFault s q e
  /-- Neither is the case, but the mentioned paths cannot be resolved -/
  | resolve {e : SqlError} (hentity : q.entity ∈ s.keys)
      (hkeys : ∀ p ∈ q.conditions.predicates, ∃ key, p.rightKey = .ok key)
      (hresolve : RelationMap.resolve s.inspector q.entity q.mentioned = .error e) :
      FirstFault s q e

/-- A query without a fault: the root entity is declared, each right side is in order, and the
    mentioned paths can be resolved. -/
structure EntityQuery.Faultless (s : Schema) (q : EntityQuery) : Prop where
  entity : q.entity ∈ s.keys
  rightKey : ∀ p ∈ q.conditions.predicates, ∃ key, p.rightKey = .ok key
  resolve : ∃ m, RelationMap.resolve s.inspector q.entity q.mentioned = .ok m

section faults

variable {s : Schema} {q : EntityQuery}

/-- A query has no fault, or a first one. -/
theorem EntityQuery.faultless_or_firstFault (s : Schema) (q : EntityQuery) :
    q.Faultless s ∨ ∃ e, q.FirstFault s e := by
  by_cases hentity : q.entity ∈ s.keys
  · cases hkeys : q.conditions.predicates.mapM Predicate.rightKey with
    | error e => exact Or.inr ⟨e, .rightKey hentity (Outcome.mapM_eq_error_iff.1 hkeys)⟩
    | ok keys =>
      have hall := Outcome.exists_mapM_eq_ok_iff.1 ⟨keys, hkeys⟩
      cases hresolve : RelationMap.resolve s.inspector q.entity q.mentioned with
      | error e => exact Or.inr ⟨e, .resolve hentity hall hresolve⟩
      | ok m => exact Or.inl ⟨hentity, hall, m, hresolve⟩
  · exact Or.inr ⟨_, .entity hentity⟩

/-- What a query mentions is found if its right sides are in order. -/
theorem EntityQuery.relationPathsOf_of_rightKey
    (h : ∀ p ∈ q.conditions.predicates, ∃ key, p.rightKey = .ok key) :
    q.relationPathsOf = .ok q.mentioned := by
  obtain ⟨keys, hkeys⟩ := Outcome.exists_mapM_eq_ok_iff.2 h
  rw [q.relationPathsOf_eq, hkeys]
  rfl

/-- A plan fails on the first fault. -/
theorem Plan.make_of_firstFault {e : SqlError} (h : q.FirstFault s e) :
    make s.inspector q = .error e := by
  -- the steps before the one that fails succeed in each case
  cases h with
  | entity hentity =>
    have hmissing := Schema.classMap_of_not_mem hentity
    exact Outcome.bind_eq_error_iff.2 (Or.inl (Outcome.map_eq_error_iff.2 hmissing))
  | rightKey hentity hkeys =>
    obtain ⟨root, hroot⟩ := Schema.exists_storageName hentity
    obtain ⟨columns, hcolumns⟩ := exists_rootColumns root hentity
    have hpaths : q.relationPathsOf = .error e := by
      rw [q.relationPathsOf_eq]
      exact Outcome.map_eq_error_iff.2 (Outcome.mapM_eq_error_iff.2 hkeys)
    refine Outcome.bind_eq_error_iff.2 (Or.inr ⟨root, hroot, ?_⟩)
    refine Outcome.bind_eq_error_iff.2 (Or.inr ⟨columns, hcolumns, ?_⟩)
    exact Outcome.bind_eq_error_iff.2 (Or.inl hpaths)
  | resolve hentity hkeys hresolve =>
    obtain ⟨root, hroot⟩ := Schema.exists_storageName hentity
    obtain ⟨columns, hcolumns⟩ := exists_rootColumns root hentity
    have hpaths := EntityQuery.relationPathsOf_of_rightKey hkeys
    refine Outcome.bind_eq_error_iff.2 (Or.inr ⟨root, hroot, ?_⟩)
    refine Outcome.bind_eq_error_iff.2 (Or.inr ⟨columns, hcolumns, ?_⟩)
    refine Outcome.bind_eq_error_iff.2 (Or.inr ⟨q.mentioned, hpaths, ?_⟩)
    exact Outcome.bind_eq_error_iff.2 (Or.inl hresolve)

/-- Without a fault each step of a plan succeeds, if the schema is closed. -/
theorem Plan.exists_make (hs : s.Closed) (h : q.Faultless s) :
    ∃ p, make s.inspector q = .ok p := by
  obtain ⟨m, hm⟩ := h.resolve
  have hcovers := RelationMap.covers_of_resolve hm
  -- the relationships of the map are those of the schema
  have hdeclared : ∀ e ∈ m.entries, e.relationship.DeclaredIn s := by
    intro e he
    exact hs.declaredIn ((RelationMap.isResolution_of_resolve hm).relationship e he)
  obtain ⟨root, hroot⟩ := Schema.exists_storageName h.entity
  obtain ⟨columns, hcolumns⟩ := exists_rootColumns root h.entity
  have hpaths := EntityQuery.relationPathsOf_of_rightKey h.rightKey
  obtain ⟨loading, hloading⟩ : ∃ l, Loading.ofPaths s.inspector m q.eager = .ok l := by
    refine Outcome.exists_foldlM_eq_ok ?_ _
    intro path hpath l
    apply Loading.exists_along
    intro p hp
    obtain ⟨e, he⟩ := hcovers.eager path hpath p hp
    have hown := hdeclared e (RelationMap.entry_eq_ok he).1
    obtain ⟨own, hown⟩ := exists_relationColumns hown
    exact ⟨e, own, he, hown⟩
  obtain ⟨conditions, hconditions⟩ :
      ∃ g, q.conditions.mapPredicates (resolvePredicate root m) = .ok g := by
    apply exists_mapPredicates
    intro p hp
    apply exists_resolvePredicate
    intro key hkey
    have hmem : key ∈ q.conditions.keys := List.mem_flatMap.2 ⟨p, hp, hkey⟩
    exact exists_resolveKey root (hcovers.keys key (List.mem_append_left _ hmem))
  obtain ⟨orderBys, horderBys⟩ : ∃ sortKeys, (q.orderBys.entries.mapM fun e =>
      (resolveKey root m e.1).map fun k => (k, e.2)) = .ok sortKeys := by
    refine Outcome.exists_mapM_eq_ok_iff.2 ?_
    intro e he
    have hmem : e.1 ∈ q.orderBys.keys := List.mem_map_of_mem he
    obtain ⟨k, hk⟩ := exists_resolveKey root (hcovers.keys e.1 (List.mem_append_right _ hmem))
    exact ⟨_, Outcome.map_eq_ok_iff.2 ⟨k, hk, rfl⟩⟩
  obtain ⟨joins, hjoins⟩ : ∃ own, m.entries.mapM (entryJoins s.inspector root m) = .ok own := by
    refine Outcome.exists_mapM_eq_ok_iff.2 ?_
    intro e he
    exact exists_entryJoins (hdeclared e he) (hcovers.parents e he)
  exact ⟨⟨root, columns ++ loading.columns, m, loading.deferred, conditions, orderBys,
    joins.flatten, q.limit, q.offset⟩, make_eq_ok_iff.2 ⟨columns, q.mentioned, loading, joins,
      hroot, hcolumns, hpaths, hm, hloading, hconditions, horderBys, hjoins, rfl, rfl, rfl, rfl,
      rfl⟩⟩

end faults

/-- Against a closed schema a query is compiled, onto an existing one or on its own, if and only if
    the root entity is declared, each right side that is marked as a key is one, and the relation
    paths that the query mentions can be resolved. Otherwise compilation fails on the error of the
    first of these that is not the case. What the paths are resolved to has all the paths that
    are looked up in it. -/
theorem compile_fails_on_firstFault {s : Schema} (hs : s.Closed) (q : EntityQuery)
    (existing : Option Query) :
    ((∃ c, compile s.inspector q existing = .ok c) ↔ q.Faultless s) ∧
      (∀ e, compile s.inspector q existing = .error e ↔ q.FirstFault s e) ∧
      ∀ m, RelationMap.resolve s.inspector q.entity q.mentioned = .ok m → m.Covers q := by
  have hfails {e : SqlError} (h : q.FirstFault s e) :
      compile s.inspector q existing = .error e :=
    Outcome.map_eq_error_iff.2 (Plan.make_of_firstFault h)
  have hsucceeds (h : q.Faultless s) : ∃ c, compile s.inspector q existing = .ok c := by
    obtain ⟨p, hp⟩ := Plan.exists_make hs h
    exact ⟨_, compile_eq_ok_iff.2 ⟨p, hp, rfl⟩⟩
  refine ⟨⟨?_, hsucceeds⟩, ?_, fun m => RelationMap.covers_of_resolve⟩
  -- a query has no fault or a first one, and with a fault it fails
  · rintro ⟨c, hc⟩
    rcases q.faultless_or_firstFault s with h | ⟨e, he⟩
    · exact h
    · exact absurd (hc.symm.trans (hfails he)) nofun
  · intro e
    refine ⟨fun he => ?_, hfails⟩
    rcases q.faultless_or_firstFault s with h | ⟨e', he'⟩
    · obtain ⟨c, hc⟩ := hsucceeds h
      exact absurd (he.symm.trans hc) nofun
    · obtain rfl : e' = e := Except.error.inj ((hfails he').symm.trans he)
      exact he'

/-- Members of groups lead on to users. A query on all of that is compiled into an existing one. In
    the other query a number is marked as a key and the path `home.owner` does not exist: the
    number is reported, although the unknown path stands first. -/
theorem compile_fails_on_firstFault_members :
    let user : ClassMap := { ClassMap.ofTable "users" with
      relationships := .ofList [("home", .ofOne "Address" "home_id" "id"),
        ("groups", .through "Group" "id" "id" ⟨.entity "Member", "user_id", "group_id"⟩)] }
    let group : ClassMap := { ClassMap.ofTable "groups" with
      relationships := .ofList [("owner", .ofOne "User" "owner_id" "id")] }
    let schema : Schema := .ofList [("User", user), ("Address", .ofTable "addresses"),
      ("Group", group), ("Member", .ofTable "members")]
    let q := ((EntityQuery.of "User").filterValue "groups.owner.name" "=" (.string "Ada")).load
      "groups.owner.home"
    let r := ((EntityQuery.of "User").filterValue "home.owner.name" "=" (.string "Ada")).filter
      (.group .or [.predicate ⟨.key "id", some "=", .value (.int 1), true⟩])
    schema.Closed ∧
      (∃ c, compile schema.inspector q (some (Query.select "people")) = .ok c) ∧
      compile schema.inspector r none = .error (.typeMismatch .keyOnRight "int") := by
  intro user group schema q r
  have hclosed : schema.Closed := by decide +kernel
  obtain ⟨hsucceeds, -, -⟩ := compile_fails_on_firstFault hclosed q (some (Query.select "people"))
  obtain ⟨-, hfails, -⟩ := compile_fails_on_firstFault hclosed r none
  have hkey : Predicate.rightKey ⟨.key "id", some "=", .value (.int 1), true⟩ =
      .error (.typeMismatch .keyOnRight "int") := rfl
  -- the first query has no fault; in the second one the right side fails before the path does
  refine ⟨hclosed, hsucceeds.2 ⟨by decide +kernel, ?_, ?_⟩,
    (hfails _).2 (.rightKey (by decide +kernel) ?_)⟩
  · intro p hp
    obtain rfl := List.mem_singleton.1 hp
    exact ⟨none, rfl⟩
  · have hview : (RelationMap.resolve schema.inspector q.entity q.mentioned).map
        (fun m => m.entries.map RelationEntry.path) =
        .ok ["groups", "groups.owner", "groups.owner.home"] := by
      decide +kernel
    obtain ⟨m, hm, -⟩ := Outcome.map_eq_ok_iff.1 hview
    exact ⟨m, hm⟩
  · refine ⟨[.ofValue "home.owner.name" "=" (.string "Ada")], _, [], rfl, ?_, hkey⟩
    intro p hp
    obtain rfl := List.mem_singleton.1 hp
    exact ⟨none, rfl⟩

end EntitySql
