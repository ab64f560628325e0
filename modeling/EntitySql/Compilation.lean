import EntitySql.EntityQuery
import EntitySql.Query
import EntitySql.RelationMap

/-! # Compilation of entity queries

    An entity query is compiled in two steps. `Plan.make` finds out all that the
    query asks for: columns, joins, conditions and sort keys in which column
    paths have become names of joined tables. Only this step can fail.
    `Plan.extend` then puts the plan into a query, which may have come with
    contents of its own.

    The columns are those of the root table, primary key first, and those of the
    entities to load along. A relation that may lead to many rows is not loaded
    along, nor is any beyond it, since its columns would repeat the root rows;
    such paths are *deferred*. Each entry of the relation map brings a left join,
    or two of them if it goes through a junction.
-/

namespace EntitySql

/-! ## Names of columns -/

/-- A column of a table or of the alias of one. -/
def qualified (table column : String) : String := table ++ "." ++ column

/-- A column path as a column of the root table or of a joined one. -/
def resolveKey (root : String) (m : RelationMap) (key : String) : Except SqlError String :=
  let (path, column) := RelationPath.splitColumn key
  if path = "" then .ok (qualified root column)
  else (m.aliasOf path).map fun a => qualified a column

/-- An operand with its column path resolved, if it is one. -/
def resolveOperand (root : String) (m : RelationMap) : Operand → Except SqlError Operand
  | .key name => (resolveKey root m name).map .key
  | operand => .ok operand

/-- The right side of a predicate with its column path resolved. -/
def resolveRight (root : String) (m : RelationMap) (p : Predicate) : Except SqlError Operand :=
  match p.right, p.rightIsKey with
  | .value (.string name), true => (resolveKey root m name).map fun k => .value (.string k)
  | right, _ => resolveOperand root m right

def resolvePredicate (root : String) (m : RelationMap) (p : Predicate) :
    Except SqlError Predicate := do
  let left ← resolveOperand root m p.left
  let right ← resolveRight root m p
  return { p with left := left, right := right }

/-! ## Columns -/

/-- The columns of the root table, primary key first. -/
def rootColumns (inspector : Inspector) (entity root : String) :
    Except SqlError (List Expression) := do
  let primaryKey ← inspector.primaryKey entity
  let keys ← inspector.keys entity
  let columns := primaryKey ++ keys.filter fun k => !primaryKey.contains k
  if columns.isEmpty then return [.key (qualified root "*") none]
  else return columns.map fun c => .key (qualified root c) none

/-- The columns of a related entity under the alias of its relation. -/
def relationColumns (inspector : Inspector) (e : RelationEntry) :
    Except SqlError (List Expression) := do
  let keys ← inspector.keys e.relationship.related
  return keys.map fun k =>
    .key (qualified e.aliasName k) (some (RelationPath.columnAlias e.aliasName k))

/-- What has been decided about the paths to load along so far. -/
structure Loading where
  columns : List Expression
  /-- The paths whose columns are selected -/
  loaded : List String
  /-- The paths that lead to many rows -/
  deferred : List String
  deriving DecidableEq, Repr, Inhabited

namespace Loading

/-- Puts a path off, once. -/
def defer (l : Loading) (path : String) : Loading :=
  if path ∈ l.deferred then l else { l with deferred := l.deferred ++ [path] }

def add (l : Loading) (path : String) (columns : List Expression) : Loading :=
  { l with columns := l.columns ++ columns, loaded := l.loaded ++ [path] }

/-- Loads the relations along one path until one of them leads to many rows. -/
def along (inspector : Inspector) (m : RelationMap) (l : Loading) :
    List String → Except SqlError Loading
  | [] => .ok l
  | path :: rest => do
    let e ← m.entry path
    if e.isToMany then return l.defer path
    else if path ∈ l.loaded then along inspector m l rest
    else
      let columns ← relationColumns inspector e
      along inspector m (l.add path columns) rest

def ofPaths (inspector : Inspector) (m : RelationMap) (paths : List String) :
    Except SqlError Loading :=
  paths.foldlM (fun l path => along inspector m l (RelationPath.prefixes path)) ⟨[], [], []⟩

end Loading

/-! ## Joins -/

def aliasUnlessSame (aliasName table : String) : Option String :=
  if aliasName = table then none else some aliasName

def junctionTable (inspector : Inspector) : JunctionTarget → Except SqlError String
  | .table name => .ok name
  | .entity name => inspector.storageName name

/-- A left join of a table under an alias, on one comparison of keys. -/
def leftJoin (table aliasName left right : String) : Join :=
  (Join.of .left table (aliasUnlessSame aliasName table)).onKeys left right

/-- The joins that lead from the owner of a relation to the related table. -/
def joinsFor (inspector : Inspector) (ownerAlias : String) (e : RelationEntry) :
    Except SqlError (List Join) := do
  let r := e.relationship
  let table ← inspector.storageName r.related
  match r.junction with
  | none =>
    return [leftJoin table e.aliasName (qualified ownerAlias r.ownerKey)
      (qualified e.aliasName r.relatedKey)]
  | some j =>
    let pivotTable ← junctionTable inspector j.target
    let pivot := e.aliasName ++ "_pivot"
    return [leftJoin pivotTable pivot (qualified ownerAlias r.ownerKey)
        (qualified pivot j.ownerKey),
      leftJoin table e.aliasName (qualified pivot j.relatedKey)
        (qualified e.aliasName r.relatedKey)]

/-- The joins of an entry, from the table of its parent or from the root table. -/
def entryJoins (inspector : Inspector) (root : String) (m : RelationMap) (e : RelationEntry) :
    Except SqlError (List Join) := do
  let ownerAlias ← match e.parent? with
    | some parent => m.aliasOf parent
    | none => .ok root
  joinsFor inspector ownerAlias e

/-! ## Plans -/

/-- All that an entity query asks of the query it is put into. -/
structure Plan where
  /-- The root table -/
  table : String
  columns : List Expression
  relationMap : RelationMap
  deferred : List String
  conditions : ConditionGroup
  orderBys : List (String × Direction)
  joins : List Join
  limit : Option UInt64
  offset : Option UInt64
  deriving DecidableEq, Inhabited

namespace Plan

/-- Finds out what an entity query asks for. -/
def make (inspector : Inspector) (q : EntityQuery) : Except SqlError Plan := do
  let root ← inspector.storageName q.entity
  let columns ← rootColumns inspector q.entity root
  let paths ← q.relationPathsOf
  let m ← RelationMap.resolve inspector q.entity paths
  let loading ← Loading.ofPaths inspector m q.eager
  let conditions ← q.conditions.mapPredicates (resolvePredicate root m)
  let orderBys ← q.orderBys.entries.mapM fun e => (resolveKey root m e.1).map fun k => (k, e.2)
  let joins ← m.entries.mapM (entryJoins inspector root m)
  return {
    table := root
    columns := columns ++ loading.columns
    relationMap := m
    deferred := loading.deferred
    conditions := conditions
    orderBys := orderBys
    joins := joins.flatten
    limit := q.limit
    offset := q.offset }

/-- Whether some relation may repeat the root rows. -/
def repeatsRows (p : Plan) : Bool := p.relationMap.entries.any RelationEntry.isToMany

/-- Conditions that demand both what old and what new ones do. A group of alternatives is not
    given another one but becomes a member of a new group. -/
def narrow (old new : ConditionGroup) : ConditionGroup :=
  if new.isEmpty then old
  else if old.isEmpty then new
  else match old.connective with
    | .and => old.push new.toCondition
    | .or => ⟨.and, [old.toCondition, new.toCondition]⟩

/-- Adds a join unless its name is taken by an earlier one. -/
def addJoin (joins : List Join) (j : Join) : List Join :=
  if joins.any fun k => k.visibleName == j.visibleName then joins else joins ++ [j]

def extend (p : Plan) (q : Query) : Query :=
  { p.columns.foldl Query.addColumn q with
    conditions := narrow q.conditions p.conditions
    orderBys := p.orderBys.foldl (fun o e => o.insert e.1 e.2) q.orderBys
    joins := p.joins.foldl addJoin q.joins
    distinct := q.distinct || p.repeatsRows
    limit := p.limit.or q.limit
    offset := p.offset.or q.offset }

end Plan

/-! ## Compilation -/

/-- A query that an entity query has been compiled to. -/
structure Compilation where
  query : Query
  relationMap : RelationMap
  /-- The paths whose entities have to be loaded by another query -/
  deferred : List String
  deriving DecidableEq, Inhabited

/-- Compiles an entity query, into an existing query if there is one and else into a selection
    from the root table. -/
def compile (inspector : Inspector) (q : EntityQuery) (existing : Option Query) :
    Except SqlError Compilation :=
  (Plan.make inspector q).map fun p =>
    ⟨p.extend (existing.getD (Query.select p.table)), p.relationMap, p.deferred⟩

end EntitySql
