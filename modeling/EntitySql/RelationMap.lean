import EntitySql.RelationPath
import EntitySql.Schema

/-! # Relation maps

    A `RelationMap` holds the relationship that each relation path of a query
    leads through. To resolve paths, all of their prefixes are taken in the
    order of `RelationPath.closure`, so the parent of a path has been resolved
    when its turn comes, and the relationship named by its last segment is
    looked up on the entity that the parent leads to.
-/

namespace EntitySql

/-- A relation path that has been resolved. -/
structure RelationEntry where
  path : String
  /-- The entity that declares the relationship -/
  owner : String
  relationship : Relationship
  /-- The name of the related table in the statement -/
  aliasName : String
  deriving DecidableEq, Repr, Inhabited

namespace RelationEntry

/-- The path of the relation before the last one. -/
def parent? (e : RelationEntry) : Option String := RelationPath.parent? e.path

def name (e : RelationEntry) : String := RelationPath.lastSegment e.path

def isToMany (e : RelationEntry) : Bool := e.relationship.isToMany

end RelationEntry

/-- Resolved relation paths, each after its parent. -/
structure RelationMap where
  entries : List RelationEntry
  deriving DecidableEq, Repr, Inhabited

namespace RelationMap

def empty : RelationMap := ⟨[]⟩

/-- The entry of a path, if it is in the map. -/
def find? (m : RelationMap) (path : String) : Option RelationEntry :=
  m.entries.find? fun e => e.path == path

/-- The entry of a path. -/
def entry (m : RelationMap) (path : String) : Except SqlError RelationEntry :=
  match m.find? path with
  | some e => .ok e
  | none => .error (.pathNotMapped path)

def aliasOf (m : RelationMap) (path : String) : Except SqlError String :=
  (m.entry path).map RelationEntry.aliasName

/-! ## Resolution -/

/-- The entity that declares the last relation of a path. -/
def ownerOf (m : RelationMap) (root path : String) : Except SqlError String :=
  match RelationPath.parent? path with
  | none => .ok root
  | some parent => (m.entry parent).map fun e => e.relationship.related

/-- Resolves one more path, whose parent is in the map. -/
def extend (inspector : Inspector) (root : String) (m : RelationMap) (path : String) :
    Except SqlError RelationMap := do
  let owner ← m.ownerOf root path
  let name := RelationPath.lastSegment path
  match ← inspector.relationship owner name with
  | some relationship =>
    return ⟨m.entries ++ [⟨path, owner, relationship, RelationPath.aliasOf path⟩]⟩
  | none => throw (.relationNotFound owner name path)

/-- Resolves relation paths and all of their prefixes from a root entity. -/
def resolve (inspector : Inspector) (root : String) (paths : List String) :
    Except SqlError RelationMap :=
  (RelationPath.closure paths).foldlM (extend inspector root) empty

end RelationMap

end EntitySql
