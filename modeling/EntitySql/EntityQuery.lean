import EntitySql.Condition
import EntitySql.OrderBy
import EntitySql.RelationPath

/-! # Entity queries

    An `EntityQuery` asks for entities of one kind without a word about tables.
    Keys in its conditions and sort keys are column paths from the root entity,
    and it lists the relation paths whose entities are to be loaded along.
-/

namespace EntitySql

/-- A query on entities. -/
structure EntityQuery where
  entity : String
  conditions : ConditionGroup
  orderBys : OrderBy
  /-- The relation paths to load along -/
  eager : List String
  limit : Option UInt64
  offset : Option UInt64
  deriving DecidableEq, Inhabited

namespace EntityQuery

/-- A query for all entities of a kind. -/
def of (entity : String) : EntityQuery := ⟨entity, .and, .empty, [], none, none⟩

def filter (q : EntityQuery) (c : Condition) : EntityQuery :=
  { q with conditions := q.conditions.push c }

def filterValue (q : EntityQuery) (path operator : String) (value : Param) : EntityQuery :=
  q.filter (.predicate (.ofValue path operator value))

/-- Adds a sort key, or gives it another direction. -/
def orderBy (q : EntityQuery) (path : String) (direction : Direction) : EntityQuery :=
  { q with orderBys := q.orderBys.insert path direction }

/-- Loads a relation path along, once. -/
def load (q : EntityQuery) (path : String) : EntityQuery :=
  if path ∈ q.eager then q else { q with eager := q.eager ++ [path] }

/-- Equality of values, where sort keys are compared as maps. -/
def equals (q r : EntityQuery) : Bool :=
  q.entity == r.entity && q.conditions.equals r.conditions &&
    q.orderBys.equals (· == ·) r.orderBys && q.eager == r.eager && q.limit == r.limit &&
    q.offset == r.offset

/-! ## Mentioned paths -/

/-- The relation path of a column path, unless it is empty. -/
def relationPaths (column : String) : List String :=
  let path := (RelationPath.splitColumn column).1
  if path = "" then [] else [path]

/-- The relation paths that a predicate mentions. -/
def predicatePaths (p : Predicate) : Except SqlError (List String) := do
  let left := match p.left with
    | .key name => relationPaths name
    | _ => []
  match ← p.rightKey with
  | some name => return left ++ relationPaths name
  | none => return left

/-- The relation paths that the conditions, the sort keys and the eager loads mention. -/
def relationPathsOf (q : EntityQuery) : Except SqlError (List String) := do
  let inConditions ← q.conditions.predicates.mapM predicatePaths
  return inConditions.flatten ++ q.orderBys.keys.flatMap relationPaths ++ q.eager

end EntityQuery

end EntitySql
