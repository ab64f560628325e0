import EntitySql.ClassMap
import EntitySql.Json.Value
import EntitySql.SqlError

/-! # Schemas

    An `Inspector` answers how entities map to storage. A query is compiled
    against any inspector; a `Schema` is the one that is given by a class map
    for each entity.

    A schema can be read from a JSON document: an object with a class map for
    each entity. A field of a class map, relationship or junction may be given
    once, its order does not matter, and other fields are ignored. Some fields
    may be missing. Instead of an object there may be an array of the fields in
    order, of which the last ones may be missing. An entity or a relationship
    that is given again keeps its place and takes the later value.
-/

namespace EntitySql

/-! ## Inspectors -/

/-- Answers how entities map to storage. -/
structure Inspector where
  storageName : String → Except SqlError String
  /-- All columns of an entity -/
  keys : String → Except SqlError (List String)
  primaryKey : String → Except SqlError (List String)
  /-- The relationship of an entity by its name, if the entity declares one -/
  relationship : String → String → Except SqlError (Option Relationship)

/-- A class map for each entity. -/
abbrev Schema := OrderedMap ClassMap

namespace Schema

def classMap (s : Schema) (entity : String) : Except SqlError ClassMap :=
  match s.get? entity with
  | some m => .ok m
  | none => .error (.entityNotFound entity)

def inspector (s : Schema) : Inspector where
  storageName := fun entity => (classMap s entity).map ClassMap.storageName
  keys := fun entity => (classMap s entity).map ClassMap.keys
  primaryKey := fun entity => (classMap s entity).map ClassMap.primaryKey
  relationship := fun entity name =>
    (classMap s entity).map fun m => m.relationships.get? name

/-! ## Records -/

/-- The fields of a record: those of an object that have one of the given names, or the items
    of an array under the names in order. No field occurs twice. -/
def record? (names : List String) : Json → Option (List (String × Json))
  | .array items => if items.length ≤ names.length then some (names.zip items) else none
  | json => do
    let fields ← json.asFields?
    let known := fields.filter fun f => names.contains f.1
    if (known.map Prod.fst).Nodup then some known else none

/-- A field that has to be there. -/
def required {α : Type} (read : Json → Option α) (name : String) (fields : List (String × Json)) :
    Option α :=
  (Entries.find? name fields).bind read

/-- A field with a value for the case that it is missing. -/
def optional {α : Type} (read : Json → Option α) (default : α) (name : String)
    (fields : List (String × Json)) : Option α :=
  match Entries.find? name fields with
  | none => some default
  | some json => read json

/-- The values of an object under its names. -/
def map? {α : Type} (read : Json → Option α) (json : Json) : Option (OrderedMap α) := do
  let fields ← json.asFields?
  let entries ← fields.mapM fun f => (read f.2).map fun v => (f.1, v)
  return OrderedMap.ofList entries

/-! ## Reading a document -/

/-- One column, or several. -/
def columns? (json : Json) : Option (List String) :=
  match json.asText? with
  | some column => some [column]
  | none => json.asTexts?

/-- The target of a junction: an object with a single field. -/
def junctionTarget? (json : Json) : Option JunctionTarget := do
  match ← json.asFields? with
  | [("table", name)] => (name.asText?).map .table
  | [("entity", name)] => (name.asText?).map .entity
  | _ => none

def junction? (json : Json) : Option Junction := do
  let fields ← record? ["target", "owner_key", "related_key"] json
  return {
    target := ← required junctionTarget? "target" fields
    ownerKey := ← required Json.asText? "owner_key" fields
    relatedKey := ← required Json.asText? "related_key" fields }

/-- A junction, or `null` for none. -/
def optionalJunction? : Json → Option (Option Junction)
  | .null => some none
  | json => (junction? json).map some

def relationship? (json : Json) : Option Relationship := do
  let fields ← record?
    ["related", "owner_key", "related_key", "has_many", "belongs_to_many", "junction"] json
  return {
    related := ← required Json.asText? "related" fields
    ownerKey := ← required Json.asText? "owner_key" fields
    relatedKey := ← required Json.asText? "related_key" fields
    hasMany := ← optional Json.asBool? false "has_many" fields
    belongsToMany := ← optional Json.asBool? false "belongs_to_many" fields
    junction := ← optional optionalJunction? none "junction" fields }

def classMap? (json : Json) : Option ClassMap := do
  let fields ← record? ["storage_name", "primary_key", "keys", "relationships"] json
  return {
    storageName := ← required Json.asText? "storage_name" fields
    primaryKey := ← optional columns? ClassMap.defaultPrimaryKey "primary_key" fields
    keys := ← optional Json.asTexts? [] "keys" fields
    relationships := ← optional (map? relationship?) .empty "relationships" fields }

def ofJson (json : Json) : Option Schema := map? classMap? json

/-- The schema of the text of a JSON document. -/
def ofText (s : String) : Except SqlError Schema :=
  match (Json.ofText? s).bind ofJson with
  | some schema => .ok schema
  | none => .error .malformedSchema

end Schema

end EntitySql
