import EntitySql.Join
import EntitySql.OrderBy

/-! # Queries

    A `Query` is a statement of one of four kinds before a dialect has been
    chosen. It holds everything that any of the kinds can have; `Query.rendering`
    writes what belongs to its kind.

    A selection is written in lines: the columns, the table, the joins, the
    conditions, the grouping and its conditions, the sort keys and the limits,
    each only if there is any. An insertion or an update without values is not
    supported.
-/

namespace EntitySql

/-! ## Operations -/

/-- The kinds of statements. -/
inductive Operation where
  | select
  | insert
  | update
  | delete
  deriving DecidableEq, Repr, Inhabited

/-- The operation that a text names, in any case and with white space around it. -/
def Operation.ofText (s : String) : Except SqlError Operation :=
  match Text.keyword s with
  | "SELECT" => .ok select
  | "INSERT" => .ok insert
  | "UPDATE" => .ok update
  | "DELETE" => .ok delete
  | _ => .error (.unsupported (.operation s))

/-! ## Queries -/

/-- A statement that no dialect has been chosen for. -/
structure Query where
  operation : Operation
  table : String
  columns : List Expression
  /-- What is assigned to each column by an insertion or an update -/
  values : OrderedMap Operand
  joins : List Join
  conditions : ConditionGroup
  groupBys : List Expression
  havings : ConditionGroup
  orderBys : OrderBy
  distinct : Bool
  limit : Option UInt64
  offset : Option UInt64
  deriving DecidableEq, Inhabited

namespace Query

/-- A query of the given kind on a table, with nothing else in it. -/
def of (operation : Operation) (table : String) : Query :=
  ⟨operation, table, [], .empty, [], .and, [], .and, .empty, false, none, none⟩

def select (table : String) : Query := of .select table

/-- Selects a column unless an equal one is selected already. -/
def addColumn (q : Query) (column : Expression) : Query :=
  if q.columns.any column.equals then q else { q with columns := q.columns ++ [column] }

/-- Assigns a value to a column, in place of an earlier one. -/
def assign (q : Query) (column : String) (value : Operand) : Query :=
  { q with values := q.values.insert column value }

def addJoin (q : Query) (join : Join) : Query := { q with joins := q.joins ++ [join] }

/-- Whether a joined table is visible under a name. -/
def hasJoin (q : Query) (name : String) : Bool := q.joins.any fun j => j.visibleName == name

/-- Adds a condition on rows. -/
def filter (q : Query) (c : Condition) : Query := { q with conditions := q.conditions.push c }

def groupBy (q : Query) (e : Expression) : Query := { q with groupBys := q.groupBys ++ [e] }

/-- Adds a condition on groups. -/
def having (q : Query) (c : Condition) : Query := { q with havings := q.havings.push c }

/-- Adds a sort key, or gives it another direction. -/
def orderBy (q : Query) (column : String) (direction : Direction) : Query :=
  { q with orderBys := q.orderBys.insert column direction }

/-- Equality of values, where assignments and sort keys are compared as maps. -/
def equals (q r : Query) : Bool :=
  q.operation == r.operation && q.table == r.table &&
    List.isEqv q.columns r.columns Expression.equals &&
    q.values.equals Operand.equals r.values && List.isEqv q.joins r.joins Join.equals &&
    q.conditions.equals r.conditions && List.isEqv q.groupBys r.groupBys Expression.equals &&
    q.havings.equals r.havings && q.orderBys.equals (· == ·) r.orderBys &&
    q.distinct == r.distinct && q.limit == r.limit && q.offset == r.offset

/-! ## Clauses -/

/-- Expressions with commas between them. -/
def expressions (es : List Expression) : Rendering := .sepBy ", " (es.map .expression)

/-- The selected columns; without any, all of them. -/
def columnsRendering (columns : List Expression) : Rendering :=
  if columns.isEmpty then .text "*" else expressions columns

/-- Joins, one on each line. -/
def joinsRendering (joins : List Join) : Rendering := .sepBy "\n" (joins.map Join.rendering)

/-- A keyword and conditions, unless these are empty. -/
def conditionLine (keyword : String) (g : ConditionGroup) : List Rendering :=
  if g.isEmpty then [] else [.text keyword ++ g.rendering]

/-- A keyword and a number, if there is one. -/
def numberLine (keyword : String) : Option UInt64 → List Rendering
  | none => []
  | some n => [.text (keyword ++ toString n.toNat)]

/-! ## Statements -/

def selectLines (q : Query) : List Rendering :=
  [.text (if q.distinct then "SELECT DISTINCT " else "SELECT ") ++ columnsRendering q.columns,
    .text "FROM " ++ .name q.table] ++
  (if q.joins.isEmpty then [] else [joinsRendering q.joins]) ++
  conditionLine "WHERE " q.conditions ++
  (if q.groupBys.isEmpty then [] else [.text "GROUP BY " ++ expressions q.groupBys]) ++
  conditionLine "HAVING " q.havings ++
  (if q.orderBys.isEmpty then [] else [.text "ORDER BY " ++ OrderBy.rendering q.orderBys]) ++
  numberLine "LIMIT " q.limit ++
  numberLine "OFFSET " q.offset

def renderSelect (q : Query) : Rendering := .sepBy "\n" q.selectLines

def renderInsert (q : Query) : Rendering :=
  if q.values.isEmpty then .fail (.unsupported (.insertWithoutValues q.table))
  else
    .text "INSERT INTO " ++ .name q.table ++ .text " (" ++
      .sepBy ", " (q.values.keys.map .name) ++ .text ")\nVALUES (" ++
      .sepBy ", " (q.values.values.map Operand.assigned) ++ .text ")"

def assignment (column : String) (value : Operand) : Rendering :=
  .name column ++ .text " = " ++ value.assigned

def renderUpdate (q : Query) : Rendering :=
  if q.values.isEmpty then .fail (.unsupported (.updateWithoutValues q.table))
  else
    .sepBy "\n" ([.text "UPDATE " ++ .name q.table,
      .text "SET " ++ .sepBy ", " (q.values.entries.map fun e => assignment e.1 e.2)] ++
      conditionLine "WHERE " q.conditions)

def renderDelete (q : Query) : Rendering :=
  .sepBy "\n" ((.text "DELETE FROM " ++ .name q.table) :: conditionLine "WHERE " q.conditions)

/-- The query as a statement of its kind. -/
def rendering (q : Query) : Rendering :=
  match q.operation with
  | .select => q.renderSelect
  | .insert => q.renderInsert
  | .update => q.renderUpdate
  | .delete => q.renderDelete

end Query

end EntitySql
