import EntitySql.OrderedMap
import EntitySql.Rendering
import EntitySql.Text.Keyword

/-! # Sort keys

    An `OrderBy` gives each sort key a direction, in the order in which the
    keys apply. A key that is given again keeps its place and takes the new
    direction.
-/

namespace EntitySql

/-- The direction of a sort key. -/
inductive Direction where
  | asc
  | desc
  deriving DecidableEq, Repr, Inhabited

namespace Direction

def sql : Direction → String
  | asc => "ASC"
  | desc => "DESC"

/-- The direction that a text spells, in any case and with white space around it. -/
def ofText (s : String) : Except SqlError Direction :=
  match Text.keyword s with
  | "ASC" => .ok asc
  | "DESC" => .ok desc
  | _ => .error (.unsupported (.direction s))

end Direction

/-- Sort keys and their directions. -/
abbrev OrderBy := OrderedMap Direction

namespace OrderBy

def keyRendering (column : String) (direction : Direction) : Rendering :=
  .name column ++ .text (" " ++ direction.sql)

/-- The sort keys without the keyword before them. -/
def rendering (o : OrderBy) : Rendering :=
  .sepBy ", " (o.entries.map fun e => keyRendering e.1 e.2)

end OrderBy

end EntitySql
