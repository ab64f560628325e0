import EntitySql.Compilation

/-! # Log events

    What is worth a line in a log follows from a result: the relations of a
    relation map in order of resolution, what has been deferred and how large a
    compiled query is, and the text of a statement. An operation that fails
    beyond some point has no result, and no events either.
-/

namespace EntitySql

/-- A message and named values. -/
structure LogEvent where
  message : String
  fields : List (String × String)
  deriving DecidableEq, Repr, Inhabited

namespace LogEvent

def truth (b : Bool) : String := if b then "true" else "false"

def resolved (e : RelationEntry) : LogEvent :=
  ⟨"Resolved relation",
    [("path", e.path), ("alias", e.aliasName), ("related", e.relationship.related),
      ("to_many", truth e.isToMany)]⟩

def ofRelationMap (m : RelationMap) : List LogEvent := m.entries.map resolved

def deferring (paths : List String) : List LogEvent :=
  if paths.isEmpty then []
  else [⟨"Deferring to-many eager loads", [("deferred", Text.shownList paths)]⟩]

def ofCompilation (c : Compilation) : List LogEvent :=
  ofRelationMap c.relationMap ++ deferring c.deferred ++
    [⟨"Compiled ORM query",
      [("relations", toString c.relationMap.entries.length),
        ("joins", toString c.query.joins.length), ("distinct", truth c.query.distinct),
        ("deferred", Text.shownList c.deferred)]⟩]

/-- A query has been rendered. The parameters are shown in place, or else after the text. -/
def ofStatement (d : Dialect) (interpolated : Bool) (s : Statement) : LogEvent :=
  if interpolated then
    ⟨"Rendered SQL: " ++ s.interpolated d, [("params", toString s.params.length)]⟩
  else ⟨"Rendered SQL: " ++ s.sql, [("params", Param.jsonList s.params)]⟩

end LogEvent

end EntitySql
