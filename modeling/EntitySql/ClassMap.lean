import EntitySql.Json.Value
import EntitySql.OrderedMap

/-! # Class maps

    A `ClassMap` says how an entity is stored: its table, the columns of its
    primary key, all of its columns, and its relationships to other entities by
    name.

    A relationship compares a column of its owner with a column of the related
    entity. It leads to many rows if it is declared so, or if it goes through a
    junction, a table that is joined in between.
-/

namespace EntitySql

/-! ## Relationships -/

/-- Where a junction is stored: in a table, or where an entity is stored. -/
inductive JunctionTarget where
  | table (name : String)
  | entity (name : String)
  deriving DecidableEq, Repr, Inhabited

/-- The table in the middle of a many-to-many relationship. -/
structure Junction where
  target : JunctionTarget
  /-- The column that refers to the owner -/
  ownerKey : String
  /-- The column that refers to the related entity -/
  relatedKey : String
  deriving DecidableEq, Repr, Inhabited

/-- A named association of an owner with a related entity. -/
structure Relationship where
  related : String
  ownerKey : String
  relatedKey : String
  hasMany : Bool
  belongsToMany : Bool
  junction : Option Junction
  deriving DecidableEq, Repr, Inhabited

namespace Relationship

/-- A relationship with one row for each owner. -/
def ofOne (related ownerKey relatedKey : String) : Relationship :=
  ⟨related, ownerKey, relatedKey, false, false, none⟩

/-- A relationship with many rows for an owner. -/
def ofMany (related ownerKey relatedKey : String) : Relationship :=
  ⟨related, ownerKey, relatedKey, true, false, none⟩

def through (related ownerKey relatedKey : String) (junction : Junction) : Relationship :=
  ⟨related, ownerKey, relatedKey, false, true, some junction⟩

/-- Whether an owner row may have more than one related row. -/
def isToMany (r : Relationship) : Bool := r.hasMany || r.belongsToMany || r.junction.isSome

end Relationship

/-! ## Class maps -/

/-- How an entity is stored. -/
structure ClassMap where
  storageName : String
  primaryKey : List String
  keys : List String
  relationships : OrderedMap Relationship
  deriving DecidableEq, Inhabited

namespace ClassMap

/-- The primary key of an entity that declares none. -/
def defaultPrimaryKey : List String := ["id"]

/-- An entity stored in a table, with the default primary key and nothing else. -/
def ofTable (storageName : String) : ClassMap := ⟨storageName, defaultPrimaryKey, [], .empty⟩

/-- Declares a relationship, in place of an earlier one of that name. -/
def declare (m : ClassMap) (name : String) (r : Relationship) : ClassMap :=
  { m with relationships := m.relationships.insert name r }

end ClassMap

/-! ## Written form -/

def JunctionTarget.json : JunctionTarget → String
  | table name => Json.braced [("table", Json.quoted name)]
  | entity name => Json.braced [("entity", Json.quoted name)]

def Junction.json (j : Junction) : String :=
  Json.braced [("target", j.target.json), ("owner_key", Json.quoted j.ownerKey),
    ("related_key", Json.quoted j.relatedKey)]

def Relationship.json (r : Relationship) : String :=
  Json.braced [("related", Json.quoted r.related), ("owner_key", Json.quoted r.ownerKey),
    ("related_key", Json.quoted r.relatedKey), ("has_many", Json.truth r.hasMany),
    ("belongs_to_many", Json.truth r.belongsToMany),
    ("junction", match r.junction with
      | none => "null"
      | some j => j.json)]

def ClassMap.json (m : ClassMap) : String :=
  Json.braced [("storage_name", Json.quoted m.storageName),
    ("primary_key", Json.bracketed (m.primaryKey.map Json.quoted)),
    ("keys", Json.bracketed (m.keys.map Json.quoted)),
    ("relationships",
      Json.braced (m.relationships.entries.map fun e => (e.1, e.2.json)))]

end EntitySql
