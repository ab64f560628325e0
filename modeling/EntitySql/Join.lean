import EntitySql.Condition.Layout

/-! # Joins

    A `Join` brings in a table under a name of its own, such as
    `LEFT JOIN "addresses" AS "address" ON "users"."address_id" = "address"."id"`.
    A join whose conditions are empty is written without them.
-/

namespace EntitySql

/-- The rows that a join keeps. -/
inductive JoinDirection where
  | left
  | right
  | inner
  /-- A join without a word for its direction -/
  | unspecified
  deriving DecidableEq, Repr, Inhabited

def JoinDirection.sql : JoinDirection → String
  | left => "LEFT JOIN"
  | right => "RIGHT JOIN"
  | inner => "INNER JOIN"
  | unspecified => "JOIN"

/-- A joined table. -/
structure Join where
  table : String
  aliasName : Option String
  direction : JoinDirection
  /-- The keyword before the conditions -/
  unification : String
  conditions : ConditionGroup
  deriving DecidableEq, Repr, Inhabited

namespace Join

/-- A join without conditions, which are to be introduced by `ON`. -/
def of (direction : JoinDirection) (table : String) (aliasName : Option String) : Join :=
  ⟨table, aliasName, direction, "ON", .and⟩

/-- Adds a comparison of two keys to the conditions. -/
def onKeys (j : Join) (left right : String) : Join :=
  { j with conditions := j.conditions.push (.predicate (.ofKeys left "=" right)) }

/-- The name under which the rest of the statement sees the joined table. -/
def visibleName (j : Join) : String := j.aliasName.getD j.table

def equals (j k : Join) : Bool :=
  j.table == k.table && j.aliasName == k.aliasName && j.direction == k.direction &&
    j.unification == k.unification && j.conditions.equals k.conditions

/-- The name under which the table is joined, if it is not the table's own. -/
def aliasRendering (j : Join) : Rendering :=
  match j.aliasName with
  | none => .empty
  | some a => .text " AS " ++ .name a

/-- The join as a line of a statement. -/
def rendering (j : Join) : Rendering :=
  .text (j.direction.sql ++ " ") ++ .name j.table ++ j.aliasRendering ++
    (if j.conditions.isEmpty then .empty
    else .text (" " ++ j.unification ++ " ") ++ j.conditions.rendering)

@[simp] theorem visibleName_onKeys (j : Join) (left right : String) :
    (j.onKeys left right).visibleName = j.visibleName := rfl

end Join

end EntitySql
