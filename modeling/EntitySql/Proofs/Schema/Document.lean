import EntitySql.Proofs.Json.Written
import EntitySql.Schema
import Mathlib.Data.List.Forall2

/-! # Schema documents

    A document of a schema is a JSON text with a field for each entity and for
    each relationship of an entity, in any order. The fields of a class map, a
    relationship and a junction stand in any order too, and a field may be left
    out where its value is the default: the primary key `id`, no columns, no
    relationships, a false flag, no junction. A primary key of one column may be
    a string, and an absent junction may be `null`.

    Whatever document of a schema is read, the inspector that comes out answers
    as the schema says (`ofText_of_isDocument`). Relationships and entities may
    come in another order than those of the schema, which no answer shows. What
    is written of a schema is one of its documents (`isDocument_braced`).
-/

namespace EntitySql

/-! ## Values -/

namespace Json

/-- A string that spells the text. -/
def IsText (json : Json) (s : String) : Prop :=
  ∃ lexeme, json = .string lexeme ∧ Spells lexeme s.toList

/-- An array of strings that spell the texts. -/
def IsTexts (json : Json) (ss : List String) : Prop :=
  ∃ items, json = .array items ∧ List.Forall₂ IsText items ss

/-- An object with the fields in this order. -/
def IsObject (json : Json) (fields : List (String × Json)) : Prop :=
  ∃ written, json = .object written ∧
    List.Forall₂ (fun w f => Spells w.1 f.1.toList ∧ w.2 = f.2) written fields

end Json

namespace Schema

/-- An object with some of the named fields, each at most once, in any order. -/
structure IsRecord (names : List String) (json : Json) (fields : List (String × Json)) : Prop where
  object : json.IsObject fields
  distinct : (fields.map Prod.fst).Nodup
  known : ∀ f ∈ fields, f.1 ∈ names

/-- The field is there. -/
def Given (fields : List (String × Json)) (name : String) (is : Json → Prop) : Prop :=
  ∃ json, (name, json) ∈ fields ∧ is json

/-- The field is there, or it is left out in the default case. -/
def GivenUnless (default : Prop) (fields : List (String × Json)) (name : String)
    (is : Json → Prop) : Prop :=
  Given fields name is ∨ (name ∉ fields.map Prod.fst ∧ default)

/-- An object with a field for each entry of a map, in any order. -/
def IsMap {α : Type} (is : Json → α → Prop) (json : Json) (m : OrderedMap α) : Prop :=
  ∃ fields entries, json.IsObject fields ∧ entries.Perm m.entries ∧
    List.Forall₂ (fun f e => f.1 = e.1 ∧ is f.2 e.2) fields entries

/-! ## Documents -/

/-- The columns of a key, or its only one as a string. -/
def IsColumns (json : Json) (columns : List String) : Prop :=
  json.IsTexts columns ∨ ∃ column, columns = [column] ∧ json.IsText column

/-- The table or the entity where a junction is stored, as the only field of an object. -/
inductive IsTarget : Json → JunctionTarget → Prop where
  | table {json value : Json} {name : String} (h : json.IsObject [("table", value)])
    (hvalue : value.IsText name) : IsTarget json (.table name)
  | entity {json value : Json} {name : String} (h : json.IsObject [("entity", value)])
    (hvalue : value.IsText name) : IsTarget json (.entity name)

/-- A junction with each of its fields. -/
def IsJunction (json : Json) (j : Junction) : Prop :=
  ∃ fields, IsRecord ["target", "owner_key", "related_key"] json fields ∧
    Given fields "target" (IsTarget · j.target) ∧
    Given fields "owner_key" (·.IsText j.ownerKey) ∧
    Given fields "related_key" (·.IsText j.relatedKey)

/-- A junction, or `null` for none. -/
def IsOptionalJunction (json : Json) : Option Junction → Prop
  | none => json = .null
  | some j => IsJunction json j

/-- A relationship. A flag may be left out if it is false, and the junction if there is none. -/
def IsRelationship (json : Json) (r : Relationship) : Prop :=
  ∃ fields, IsRecord
      ["related", "owner_key", "related_key", "has_many", "belongs_to_many", "junction"]
      json fields ∧
    Given fields "related" (·.IsText r.related) ∧
    Given fields "owner_key" (·.IsText r.ownerKey) ∧
    Given fields "related_key" (·.IsText r.relatedKey) ∧
    GivenUnless (r.hasMany = false) fields "has_many" (· = .bool r.hasMany) ∧
    GivenUnless (r.belongsToMany = false) fields "belongs_to_many" (· = .bool r.belongsToMany) ∧
    GivenUnless (r.junction = none) fields "junction" (IsOptionalJunction · r.junction)

/-- A class map. What has a default may be left out, which is all but the name of the table. -/
def IsClassMap (json : Json) (m : ClassMap) : Prop :=
  ∃ fields, IsRecord ["storage_name", "primary_key", "keys", "relationships"] json fields ∧
    Given fields "storage_name" (·.IsText m.storageName) ∧
    GivenUnless (m.primaryKey = ["id"]) fields "primary_key" (IsColumns · m.primaryKey) ∧
    GivenUnless (m.keys = []) fields "keys" (·.IsTexts m.keys) ∧
    GivenUnless (m.relationships.entries = []) fields "relationships"
      (IsMap IsRelationship · m.relationships)

/-- A text that writes a JSON object with a class map for each entity of the schema. -/
def IsDocument (text : String) (schema : Schema) : Prop :=
  ∃ json, Json.Writes json text.toList ∧ IsMap IsClassMap json schema

/-! ## Written documents -/

/-- A text that writes a value of some kind. -/
def Written (is : Json → Prop) (text : String) : Prop :=
  ∃ json, Json.Writes json text.toList ∧ is json

theorem Written.spaced {is : Json → Prop} {text before after : String} (h : Written is text)
    (hbefore : Json.Space before.toList) (hafter : Json.Space after.toList) :
    Written is (before ++ text ++ after) := by
  obtain ⟨json, hjson, his⟩ := h
  refine ⟨json, ?_, his⟩
  rw [String.toList_append, String.toList_append]
  exact .space hbefore hjson hafter

theorem written_quoted (s : String) : Written (·.IsText s) (Json.quoted s) :=
  ⟨_, Json.writes_quoted s, _, rfl, Json.spells_escape s.toList⟩

theorem written_truth (b : Bool) : Written (· = .bool b) (Json.truth b) :=
  ⟨_, Json.writes_truth b, rfl⟩

theorem written_texts (ss : List String) :
    Written (·.IsTexts ss) (Json.bracketed (ss.map Json.quoted)) := by
  have hitems : List.Forall₂ (fun v x => Json.Writes v x.toList)
      (ss.map fun s => .string (s.toList.flatMap Json.escape)) (ss.map Json.quoted) := by
    rw [List.forall₂_map_left_iff, List.forall₂_map_right_iff, List.forall₂_same]
    exact fun s _ => Json.writes_quoted s
  refine ⟨_, Json.writes_bracketed hitems, _, rfl, ?_⟩
  rw [List.forall₂_map_left_iff, List.forall₂_same]
  exact fun s _ => ⟨_, rfl, Json.spells_escape s.toList⟩

theorem written_object {xs : List (String × String)} {fields : List (String × Json)}
    (h : Json.WrittenFields fields xs) : Written (·.IsObject fields) (Json.braced xs) := by
  refine ⟨_, Json.writes_braced h, _, rfl, ?_⟩
  rw [List.forall₂_map_left_iff, List.forall₂_same]
  exact fun f _ => ⟨Json.spells_escape f.1.toList, rfl⟩

/-- Named entries and the texts of their values, in the same order. -/
inductive WrittenEntries {α : Type} (is : Json → α → Prop) :
    List (String × α) → List (String × String) → Prop where
  | nil : WrittenEntries is [] []
  | cons {a : α} {text : String} {entries : List (String × α)} {texts : List (String × String)}
    (name : String) (h : Written (is · a) text) (hrest : WrittenEntries is entries texts) :
    WrittenEntries is ((name, a) :: entries) ((name, text) :: texts)

namespace WrittenEntries

variable {α : Type} {is : Json → α → Prop} {entries : List (String × α)}
  {texts : List (String × String)}

theorem exists_fields (h : WrittenEntries is entries texts) :
    ∃ fields, Json.WrittenFields fields texts ∧
      List.Forall₂ (fun f e => f.1 = e.1 ∧ is f.2 e.2) fields entries := by
  induction h with
  | nil => exact ⟨[], .nil, .nil⟩
  | cons name h _ ih =>
    obtain ⟨json, hjson, his⟩ := h
    obtain ⟨fields, hfields, hentries⟩ := ih
    exact ⟨(name, json) :: fields, .cons name hjson hfields, .cons ⟨rfl, his⟩ hentries⟩

theorem exists_object (h : WrittenEntries is entries texts) :
    ∃ json, Json.Writes json (Json.braced texts).toList ∧ ∃ fields, json.IsObject fields ∧
      List.Forall₂ (fun f e => f.1 = e.1 ∧ is f.2 e.2) fields entries := by
  obtain ⟨fields, hfields, hentries⟩ := h.exists_fields
  obtain ⟨json, hjson, hobject⟩ := written_object hfields
  exact ⟨json, hjson, fields, hobject, hentries⟩

/-- The entries of a map may be written in any order. -/
theorem written_map {m : OrderedMap α} (h : WrittenEntries is entries texts)
    (horder : entries.Perm m.entries) : Written (IsMap is · m) (Json.braced texts) := by
  obtain ⟨json, hjson, fields, hobject, hentries⟩ := h.exists_object
  exact ⟨json, hjson, fields, entries, hobject, horder, hentries⟩

theorem of_forall {write : α → String} (hwrite : ∀ a, Written (is · a) (write a))
    (entries : List (String × α)) :
    WrittenEntries is entries (entries.map fun e => (e.1, write e.2)) := by
  induction entries with
  | nil => exact .nil
  | cons e entries ih => exact .cons e.1 (hwrite e.2) ih

end WrittenEntries

theorem written_map {α : Type} {is : Json → α → Prop} {write : α → String}
    (hwrite : ∀ a, Written (is · a) (write a)) (m : OrderedMap α) :
    Written (IsMap is · m) (Json.braced (m.entries.map fun e => (e.1, write e.2))) :=
  (WrittenEntries.of_forall hwrite m.entries).written_map (.refl _)

theorem written_target (target : JunctionTarget) : Written (IsTarget · target) target.json := by
  cases target with
  | table name =>
    obtain ⟨value, hvalue, hname⟩ := written_quoted name
    obtain ⟨json, hjson, hobject⟩ := written_object (.cons "table" hvalue .nil)
    exact ⟨json, hjson, .table hobject hname⟩
  | entity name =>
    obtain ⟨value, hvalue, hname⟩ := written_quoted name
    obtain ⟨json, hjson, hobject⟩ := written_object (.cons "entity" hvalue .nil)
    exact ⟨json, hjson, .entity hobject hname⟩

/-- The fields of a record by name, with what the value of each is to be, and the texts of the
    values. -/
abbrev WrittenParts : List (String × (Json → Prop)) → List (String × String) → Prop :=
  WrittenEntries fun json is => is json

theorem given_of_forall₂ {fields : List (String × Json)} {parts : List (String × (Json → Prop))}
    (h : List.Forall₂ (fun f part => f.1 = part.1 ∧ part.2 f.2) fields parts) :
    ∀ part ∈ parts, Given fields part.1 part.2 := by
  induction h with
  | nil => exact nofun
  | @cons f part fields parts hf _ ih =>
    obtain ⟨hname, his⟩ := hf
    refine List.forall_mem_cons.2 ⟨⟨f.2, hname ▸ List.mem_cons_self, his⟩, fun part hpart => ?_⟩
    obtain ⟨json, hmem, his⟩ := ih part hpart
    exact ⟨json, List.mem_cons_of_mem _ hmem, his⟩

/-- The object has just these fields, and each of them is given. -/
theorem WrittenParts.exists_record {parts : List (String × (Json → Prop))}
    {texts : List (String × String)} (h : WrittenParts parts texts) :
    ∃ json, Json.Writes json (Json.braced texts).toList ∧ ∃ fields, json.IsObject fields ∧
      fields.map Prod.fst = parts.map Prod.fst ∧
      parts.Forall fun part => Given fields part.1 part.2 := by
  obtain ⟨json, hjson, fields, hobject, hparts⟩ := h.exists_object
  have hnames : fields.map Prod.fst = parts.map Prod.fst := by
    rw [← List.forall₂_eq_eq_eq, List.forall₂_map_left_iff, List.forall₂_map_right_iff]
    exact hparts.imp fun _ _ h => h.1
  exact ⟨json, hjson, fields, hobject, hnames,
    List.forall_iff_forall_mem.2 (given_of_forall₂ hparts)⟩

theorem isRecord_of_names {names found : List String} {json : Json}
    {fields : List (String × Json)} (hobject : json.IsObject fields)
    (hfound : fields.map Prod.fst = found) (hdistinct : found.Nodup)
    (hknown : ∀ name ∈ found, name ∈ names) : IsRecord names json fields := by
  subst hfound
  exact ⟨hobject, hdistinct, fun f hf => hknown f.1 (List.mem_map_of_mem hf)⟩

theorem written_junction (j : Junction) : Written (IsJunction · j) j.json := by
  obtain ⟨json, hjson, fields, hobject, hnames, htarget, howner, hrelated⟩ :=
    WrittenParts.exists_record (.cons "target" (written_target j.target)
      (.cons "owner_key" (written_quoted j.ownerKey)
        (.cons "related_key" (written_quoted j.relatedKey) .nil)))
  exact ⟨json, hjson, fields, isRecord_of_names hobject hnames (by simp) (by simp),
    htarget, howner, hrelated⟩

theorem written_optionalJunction (junction : Option Junction) :
    Written (IsOptionalJunction · junction)
      (match junction with
        | none => "null"
        | some j => j.json) := by
  cases junction with
  | none => exact ⟨.null, .null, rfl⟩
  | some j => exact written_junction j

/-- The writer gives every field, also those it could leave out. -/
theorem written_relationship (r : Relationship) : Written (IsRelationship · r) r.json := by
  obtain ⟨json, hjson, fields, hobject, hnames, hrelated, howner, hkey, hmany, hbelongs,
      hjunction⟩ :=
    WrittenParts.exists_record (.cons "related" (written_quoted r.related)
      (.cons "owner_key" (written_quoted r.ownerKey)
        (.cons "related_key" (written_quoted r.relatedKey)
          (.cons "has_many" (written_truth r.hasMany)
            (.cons "belongs_to_many" (written_truth r.belongsToMany)
              (.cons "junction" (written_optionalJunction r.junction) .nil))))))
  exact ⟨json, hjson, fields, isRecord_of_names hobject hnames (by simp) (by simp),
    hrelated, howner, hkey, .inl hmany, .inl hbelongs, .inl hjunction⟩

/-- Both flags and the junction may be left out. -/
theorem written_ofOne (related ownerKey relatedKey : String) :
    Written (IsRelationship · (.ofOne related ownerKey relatedKey))
      (Json.braced [("owner_key", Json.quoted ownerKey), ("related_key", Json.quoted relatedKey),
        ("related", Json.quoted related)]) := by
  obtain ⟨json, hjson, fields, hobject, hnames, howner, hkey, hrelated⟩ :=
    WrittenParts.exists_record (.cons "owner_key" (written_quoted ownerKey)
      (.cons "related_key" (written_quoted relatedKey)
        (.cons "related" (written_quoted related) .nil)))
  have hmissing : "has_many" ∉ fields.map Prod.fst ∧ "belongs_to_many" ∉ fields.map Prod.fst ∧
      "junction" ∉ fields.map Prod.fst := by
    simp [hnames]
  obtain ⟨hmany, hbelongs, hjunction⟩ := hmissing
  exact ⟨json, hjson, fields, isRecord_of_names hobject hnames (by simp) (by simp),
    hrelated, howner, hkey, .inr ⟨hmany, rfl⟩, .inr ⟨hbelongs, rfl⟩, .inr ⟨hjunction, rfl⟩⟩

/-- The fields may stand in another order, and the flag that is false may be left out. -/
theorem written_through (related ownerKey relatedKey : String) {junction : Junction}
    {text : String} (h : Written (IsJunction · junction) text) :
    Written (IsRelationship · (.through related ownerKey relatedKey junction))
      (Json.braced [("junction", text), ("belongs_to_many", Json.truth true),
        ("related_key", Json.quoted relatedKey), ("owner_key", Json.quoted ownerKey),
        ("related", Json.quoted related)]) := by
  obtain ⟨json, hjson, fields, hobject, hnames, hjunction, hbelongs, hkey, howner, hrelated⟩ :=
    WrittenParts.exists_record (.cons "junction" h
      (.cons "belongs_to_many" (written_truth true)
        (.cons "related_key" (written_quoted relatedKey)
          (.cons "owner_key" (written_quoted ownerKey)
            (.cons "related" (written_quoted related) .nil)))))
  have hmany : "has_many" ∉ fields.map Prod.fst := by simp [hnames]
  exact ⟨json, hjson, fields, isRecord_of_names hobject hnames (by simp) (by simp),
    hrelated, howner, hkey, .inr ⟨hmany, rfl⟩, .inl hbelongs, .inl hjunction⟩

theorem written_classMap (m : ClassMap) : Written (IsClassMap · m) m.json := by
  obtain ⟨json, hjson, fields, hobject, hnames, hstorage, hprimary, hkeys, hrelationships⟩ :=
    WrittenParts.exists_record (.cons "storage_name" (written_quoted m.storageName)
      (.cons "primary_key" (written_texts m.primaryKey)
        (.cons "keys" (written_texts m.keys)
          (.cons "relationships" (written_map written_relationship m.relationships)
            .nil))))
  have hcolumns : Given fields "primary_key" (IsColumns · m.primaryKey) := by
    obtain ⟨value, hvalue, htexts⟩ := hprimary
    exact ⟨value, hvalue, .inl htexts⟩
  exact ⟨json, hjson, fields, isRecord_of_names hobject hnames (by simp) (by simp),
    hstorage, .inl hcolumns, .inl hkeys, .inl hrelationships⟩

/-- What is written of a schema, with all of its fields, is a document of it. -/
theorem isDocument_braced (schema : Schema) :
    IsDocument (Json.braced (schema.entries.map fun e => (e.1, e.2.json))) schema :=
  written_map written_classMap schema

/-! ## Reading values -/

theorem asText?_of_isText {json : Json} {s : String} (h : json.IsText s) :
    json.asText? = some s := by
  obtain ⟨lexeme, rfl, hlexeme⟩ := h
  rw [Json.asText?, Json.text?_of_spells hlexeme, Option.map_some, String.ofList_toList]

/-- A traversal succeeds if it does on each element. -/
theorem mapM_eq_some {α β : Type} {f : α → Option β} {as : List α} {bs : List β}
    (h : List.Forall₂ (fun a b => f a = some b) as bs) : as.mapM f = some bs := by
  induction h with
  | nil => rfl
  | cons hab _ ih => simp [hab, ih]

theorem asTexts?_of_isTexts {json : Json} {ss : List String} (h : json.IsTexts ss) :
    json.asTexts? = some ss := by
  obtain ⟨items, rfl, hitems⟩ := h
  exact mapM_eq_some (hitems.imp fun _ _ h => asText?_of_isText h)

theorem asFields?_of_isObject {json : Json} {fields : List (String × Json)}
    (h : json.IsObject fields) : json.asFields? = some fields := by
  obtain ⟨written, rfl, hwritten⟩ := h
  refine mapM_eq_some (hwritten.imp fun w f h => ?_)
  obtain ⟨hname, hvalue⟩ := h
  rw [Json.text?_of_spells hname, hvalue, Option.map_some, String.ofList_toList]

theorem record?_of_isRecord {names : List String} {json : Json} {fields : List (String × Json)}
    (h : IsRecord names json fields) : record? names json = some fields := by
  have hfields := asFields?_of_isObject h.object
  have hknown : fields.filter (fun f => names.contains f.1) = fields :=
    List.filter_eq_self.2 fun f hf => List.contains_iff_mem.2 (h.known f hf)
  obtain ⟨written, rfl, -⟩ := h.object
  simp only [record?, hfields, hknown, Option.bind_eq_bind, Option.bind_some, h.distinct,
    if_true]

section fields

variable {α : Type} {names : List String} {json : Json} {fields : List (String × Json)}
  {name : String} {is : Json → Prop} {read : Json → Option α} {a : α}

theorem required_of_given (h : IsRecord names json fields) (hgiven : Given fields name is)
    (hread : ∀ json, is json → read json = some a) : required read name fields = some a := by
  obtain ⟨value, hmem, hvalue⟩ := hgiven
  rw [required, (Entries.find?_eq_some_iff h.distinct).2 hmem]
  exact hread value hvalue

theorem optional_of_given {default : α} {isDefault : Prop} {P : α → Prop}
    (h : IsRecord names json fields) (hgiven : GivenUnless isDefault fields name is)
    (hread : ∀ json, is json → ∃ a, read json = some a ∧ P a) (hdefault : isDefault → P default) :
    ∃ a, optional read default name fields = some a ∧ P a := by
  unfold optional
  rcases hgiven with ⟨value, hmem, hvalue⟩ | ⟨habsent, hisDefault⟩
  · rw [(Entries.find?_eq_some_iff h.distinct).2 hmem]
    exact hread value hvalue
  · rw [(Entries.find?_eq_none_iff name fields).2 habsent]
    exact ⟨default, rfl, hdefault hisDefault⟩

theorem optional_eq_of_given {default : α} (h : IsRecord names json fields)
    (hgiven : GivenUnless (a = default) fields name is)
    (hread : ∀ json, is json → read json = some a) :
    optional read default name fields = some a := by
  obtain ⟨_, hoptional, rfl⟩ := optional_of_given (P := (· = a)) h hgiven
    (fun json hjson => ⟨a, hread json hjson, rfl⟩) Eq.symm
  exact hoptional

end fields

/-! ## Reading a class map -/

theorem columns?_of_isColumns {json : Json} {columns : List String} (h : IsColumns json columns) :
    columns? json = some columns := by
  rcases h with htexts | ⟨column, rfl, htext⟩
  · obtain ⟨items, rfl, -⟩ := id htexts
    exact asTexts?_of_isTexts htexts
  · rw [columns?, asText?_of_isText htext]

theorem junctionTarget?_of_isTarget {json : Json} {target : JunctionTarget}
    (h : IsTarget json target) : junctionTarget? json = some target := by
  cases h with
  | table h hvalue => simp [junctionTarget?, asFields?_of_isObject h, asText?_of_isText hvalue]
  | entity h hvalue => simp [junctionTarget?, asFields?_of_isObject h, asText?_of_isText hvalue]

theorem junction?_of_isJunction {json : Json} {j : Junction} (h : IsJunction json j) :
    junction? json = some j := by
  obtain ⟨fields, hrecord, htarget, howner, hrelated⟩ := h
  have htarget' := required_of_given hrecord htarget fun _ => junctionTarget?_of_isTarget
  have howner' := required_of_given hrecord howner fun _ => asText?_of_isText
  have hrelated' := required_of_given hrecord hrelated fun _ => asText?_of_isText
  simp [junction?, record?_of_isRecord hrecord, htarget', howner', hrelated']

theorem optionalJunction?_of_isOptionalJunction {json : Json} {j : Option Junction}
    (h : IsOptionalJunction json j) : optionalJunction? json = some j := by
  cases j with
  | none => rw [show json = .null from h, optionalJunction?]
  | some j =>
    have hjunction := junction?_of_isJunction h
    -- `null` is no junction
    cases json with
    | null => cases hjunction
    | _ => exact congrArg (Option.map some) hjunction

theorem relationship?_of_isRelationship {json : Json} {r : Relationship}
    (h : IsRelationship json r) : relationship? json = some r := by
  obtain ⟨fields, hrecord, hrelated, hownerKey, hrelatedKey, hmany, hbelongs, hjunction⟩ := h
  have hbool : ∀ (b : Bool) (json : Json), json = .bool b → json.asBool? = some b :=
    fun _ _ e => e ▸ rfl
  -- field by field: a given field reads as its value, a missing one as its default
  have hrelated' := required_of_given hrecord hrelated fun _ => asText?_of_isText
  have hownerKey' := required_of_given hrecord hownerKey fun _ => asText?_of_isText
  have hrelatedKey' := required_of_given hrecord hrelatedKey fun _ => asText?_of_isText
  have hmany' := optional_eq_of_given hrecord hmany (hbool _)
  have hbelongs' := optional_eq_of_given hrecord hbelongs (hbool _)
  have hjunction' := optional_eq_of_given hrecord hjunction fun _ =>
    optionalJunction?_of_isOptionalJunction
  simp [relationship?, record?_of_isRecord hrecord, hrelated', hownerKey', hrelatedKey', hmany',
    hbelongs', hjunction']

/-! ## Reading a map -/

/-- Entries with related values under the same keys in the same order. -/
def RelatedEntries {α β : Type} (R : β → α → Prop) :
    List (String × β) → List (String × α) → Prop :=
  List.Forall₂ fun e' e => e'.1 = e.1 ∧ R e'.2 e.2

section maps

variable {α β : Type} {R : β → α → Prop} {es' : List (String × β)} {es : List (String × α)}

theorem RelatedEntries.keys_eq (h : RelatedEntries R es' es) :
    es'.map Prod.fst = es.map Prod.fst := by
  induction h with
  | nil => rfl
  | cons he _ ih => rw [List.map_cons, List.map_cons, he.1, ih]

theorem RelatedEntries.find? (h : RelatedEntries R es' es) (key : String) :
    Option.Rel R (Entries.find? key es') (Entries.find? key es) := by
  induction h with
  | nil => exact .none
  | cons he _ ih =>
    rw [Entries.find?, Entries.find?, he.1]
    split
    · exact .some he.2
    · exact ih

/-- Reading the values of an object one by one. -/
theorem mapM_of_forall₂ {is : Json → α → Prop} {read : Json → Option β}
    {fields : List (String × Json)} (hread : ∀ json a, is json a → ∃ b, read json = some b ∧ R b a)
    (h : List.Forall₂ (fun f e => f.1 = e.1 ∧ is f.2 e.2) fields es) :
    ∃ es', (fields.mapM fun f => (read f.2).map fun v => (f.1, v)) = some es' ∧
      RelatedEntries R es' es := by
  induction h with
  | nil => exact ⟨[], rfl, .nil⟩
  | @cons f e _ _ hfield _ ih =>
    obtain ⟨b, hb, hR⟩ := hread _ _ hfield.2
    obtain ⟨es', hes', hrelated⟩ := ih
    exact ⟨(f.1, b) :: es', by simp [hb, hes'], .cons ⟨hfield.1, hR⟩ hrelated⟩

/-- A map is read from an object of its entries in any order, and gives related values under the
    same keys. -/
theorem map?_of_isMap {is : Json → α → Prop} {read : Json → Option β} {json : Json}
    {m : OrderedMap α} (hread : ∀ json a, is json a → ∃ b, read json = some b ∧ R b a)
    (h : IsMap is json m) :
    ∃ n, map? read json = some n ∧ ∀ key, Option.Rel R (n.get? key) (m.get? key) := by
  obtain ⟨fields, entries, hobject, hperm, hfields⟩ := h
  obtain ⟨entries', hentries', hrelated⟩ := mapM_of_forall₂ hread hfields
  have hnodup : (entries.map Prod.fst).Nodup := (hperm.map Prod.fst).nodup_iff.2 m.nodup
  have hnodup' : (entries'.map Prod.fst).Nodup := hrelated.keys_eq ▸ hnodup
  refine ⟨.ofList entries', ?_, fun key => ?_⟩
  -- the map that is read has the order of the object, in which each key is found all the same
  · simp [map?, asFields?_of_isObject hobject, hentries']
  · rw [OrderedMap.get?, OrderedMap.get?, OrderedMap.entries_ofList hnodup',
      ← Entries.find?_perm hperm hnodup]
    exact hrelated.find? key

end maps

/-! ## Reading a document -/

/-- Class maps that say the same, with their relationships in whatever order. -/
structure SameClassMap (m n : ClassMap) : Prop where
  storageName : m.storageName = n.storageName
  primaryKey : m.primaryKey = n.primaryKey
  keys : m.keys = n.keys
  relationship : ∀ name, m.relationships.get? name = n.relationships.get? name

theorem eq_of_rel {α : Type} {a b : Option α} (h : Option.Rel Eq a b) : a = b := by
  cases h with
  | none => rfl
  | some h => rw [h]

theorem map?_relationship? {json : Json} {m : OrderedMap Relationship}
    (h : IsMap IsRelationship json m) :
    ∃ n, map? relationship? json = some n ∧ ∀ name, n.get? name = m.get? name := by
  obtain ⟨n, hn, hrel⟩ := map?_of_isMap
    (fun _ r hr => ⟨r, relationship?_of_isRelationship hr, Eq.refl r⟩) h
  exact ⟨n, hn, fun name => eq_of_rel (hrel name)⟩

theorem classMap?_of_isClassMap {json : Json} {m : ClassMap} (h : IsClassMap json m) :
    ∃ n, classMap? json = some n ∧ SameClassMap n m := by
  obtain ⟨fields, hrecord, hstorage, hprimary, hkeys, hrelationships⟩ := h
  have hstorage' := required_of_given hrecord hstorage fun _ => asText?_of_isText
  have hprimary' : optional columns? ClassMap.defaultPrimaryKey "primary_key" fields =
      some m.primaryKey :=
    optional_eq_of_given hrecord hprimary fun _ => columns?_of_isColumns
  have hkeys' := optional_eq_of_given hrecord hkeys fun _ => asTexts?_of_isTexts
  have hempty : m.relationships.entries = [] →
      ∀ name, OrderedMap.empty.get? name = m.relationships.get? name := fun hnone name => by
    rw [show m.relationships = .empty from OrderedMap.ext hnone]
  -- the relationships are read up to their order, every other field as it is
  obtain ⟨relationships, hrelationships', hsame⟩ :=
    optional_of_given hrecord hrelationships (fun _ => map?_relationship?) hempty
  refine ⟨⟨m.storageName, m.primaryKey, m.keys, relationships⟩, ?_, rfl, rfl, rfl, hsame⟩
  simp [classMap?, record?_of_isRecord hrecord, hstorage', hprimary', hkeys', hrelationships']

/-- A schema is read from any of its documents, up to the order of entries. -/
theorem ofText_eq_of_isDocument {text : String} {schema : Schema} (h : IsDocument text schema) :
    ∃ read, ofText text = .ok read ∧
      ∀ entity, Option.Rel SameClassMap (read.get? entity) (schema.get? entity) := by
  obtain ⟨json, hwrites, hmap⟩ := h
  obtain ⟨read, hread, hsame⟩ := map?_of_isMap (fun _ _ h => classMap?_of_isClassMap h) hmap
  refine ⟨read, ?_, hsame⟩
  rw [ofText, Json.ofText?_of_writes hwrites, Option.bind_some, ofJson, hread]

end Schema

/-! ## What an inspector answers -/

/-- An inspector answers for each entity of a schema and each name of a relationship as the class
    map of the entity says, and knows no other entities. -/
structure Inspector.Answers (i : Inspector) (schema : Schema) : Prop where
  storageName : ∀ entity m, (entity, m) ∈ schema.entries → i.storageName entity = .ok m.storageName
  keys : ∀ entity m, (entity, m) ∈ schema.entries → i.keys entity = .ok m.keys
  primaryKey : ∀ entity m, (entity, m) ∈ schema.entries → i.primaryKey entity = .ok m.primaryKey
  relationship : ∀ entity m, (entity, m) ∈ schema.entries →
    ∀ name r, (name, r) ∈ m.relationships.entries → i.relationship entity name = .ok (some r)
  noRelationship : ∀ entity m, (entity, m) ∈ schema.entries →
    ∀ name, name ∉ m.relationships.keys → i.relationship entity name = .ok none
  unknown : ∀ entity, entity ∉ schema.keys →
    i.storageName entity = .error (.entityNotFound entity) ∧
    i.keys entity = .error (.entityNotFound entity) ∧
    i.primaryKey entity = .error (.entityNotFound entity) ∧
    ∀ name, i.relationship entity name = .error (.entityNotFound entity)

namespace Schema

theorem inspector_answers (schema : Schema) : schema.inspector.Answers schema := by
  have hknown : ∀ entity m, (entity, m) ∈ schema.entries → classMap schema entity = .ok m := by
    intro entity m hm
    rw [classMap, OrderedMap.get?, (Entries.find?_eq_some_iff schema.nodup).2 hm]
  refine ⟨?storageName, ?keys, ?primaryKey, ?relationship, ?noRelationship, ?unknown⟩
  case storageName =>
    exact fun entity m hm => congrArg (Except.map ClassMap.storageName) (hknown entity m hm)
  case keys =>
    exact fun entity m hm => congrArg (Except.map ClassMap.keys) (hknown entity m hm)
  case primaryKey =>
    exact fun entity m hm => congrArg (Except.map ClassMap.primaryKey) (hknown entity m hm)
  case relationship =>
    intro entity m hm name r hr
    have hfound : m.relationships.get? name = some r :=
      (Entries.find?_eq_some_iff m.relationships.nodup).2 hr
    change (classMap schema entity).map (fun m => m.relationships.get? name) = _
    rw [hknown entity m hm, Except.map, hfound]
  case noRelationship =>
    -- an unknown relation of a known entity is an answer, not an error
    intro entity m hm name hname
    have habsent : m.relationships.get? name = none :=
      (Entries.find?_eq_none_iff name m.relationships.entries).2 hname
    change (classMap schema entity).map (fun m => m.relationships.get? name) = _
    rw [hknown entity m hm, Except.map, habsent]
  case unknown =>
    intro entity hentity
    have habsent : classMap schema entity = .error (.entityNotFound entity) := by
      rw [classMap, OrderedMap.get?, (Entries.find?_eq_none_iff entity schema.entries).2 hentity]
    simp only [inspector, habsent]
    exact ⟨rfl, rfl, rfl, fun _ => rfl⟩

/-- An inspector looks at nothing but what its class maps say. -/
theorem inspector_congr {s s' : Schema}
    (h : ∀ entity, Option.Rel SameClassMap (s.get? entity) (s'.get? entity)) :
    s.inspector = s'.inspector := by
  have hanswer : ∀ {α : Type} (f : ClassMap → α) (entity : String),
      (∀ m n, SameClassMap m n → f m = f n) →
      (classMap s entity).map f = (classMap s' entity).map f := by
    intro α f entity hf
    have hentity := h entity
    unfold classMap
    generalize s.get? entity = found, s'.get? entity = found' at hentity
    cases hentity with
    | none => rfl
    | some hsame => exact congrArg Except.ok (hf _ _ hsame)
  -- each answer is a function of the class map that is found, and fails where none is found
  unfold inspector
  congr 1
  · exact funext fun entity => hanswer _ entity fun _ _ h => h.storageName
  · exact funext fun entity => hanswer _ entity fun _ _ h => h.keys
  · exact funext fun entity => hanswer _ entity fun _ _ h => h.primaryKey
  · exact funext fun entity => funext fun name => hanswer _ entity fun _ _ h => h.relationship name

/-- Whatever document of a schema is read, the inspector that comes out answers as the schema
    says. -/
theorem ofText_of_isDocument {text : String} {schema : Schema} (h : IsDocument text schema) :
    ∃ read, ofText text = .ok read ∧ read.inspector.Answers schema := by
  obtain ⟨read, hread, hsame⟩ := ofText_eq_of_isDocument h
  exact ⟨read, hread, inspector_congr hsame ▸ inspector_answers schema⟩

/-- A document with white space, a name that is spelled with an escape, a primary key that is a
    string, and relationships in another order than that of the schema, one of them through a
    junction. Fields that have their default are left out. -/
theorem ofText_of_isDocument_users :
    let home := Relationship.ofOne "Address" "home_id" "id"
    let junction : Junction := ⟨.table "user_tags", "user_id", "tag_id"⟩
    let tags := Relationship.through "Tag" "uid" "id" junction
    let users : ClassMap := ⟨"users", ["uid"], [], .ofList [("home", home), ("tags", tags)]⟩
    let text := Json.braced [
      ("primary_key", Json.quoted "uid"),
      ("relationships", Json.braced [
        ("tags", Json.braced [
          ("junction", " " ++ junction.json ++ "\n"), ("belongs_to_many", Json.truth true),
          ("related_key", Json.quoted "id"), ("owner_key", Json.quoted "uid"),
          ("related", Json.quoted "Tag")]),
        ("home", Json.braced [
          ("owner_key", Json.quoted "home_id"), ("related_key", Json.quoted "id"),
          ("related", Json.quoted "Address")])]),
      ("storage_name", "\"us\\u0065rs\"")]
    ∃ read, ofText ("\n" ++ Json.braced [("User", "\t" ++ text ++ "\r\n")] ++ " ") = .ok read ∧
      read.inspector.Answers (.ofList [("User", users)]) := by
  intro home junction tags users text
  have hspace : Json.Space " ".toList ∧ Json.Space "\n".toList ∧ Json.Space "\t".toList ∧
      Json.Space "\r\n".toList := by
    simp [Json.Space]
  obtain ⟨hblank, hline, htab, hreturn⟩ := hspace
  have htags : Written (IsRelationship · tags) _ :=
    written_through "Tag" "uid" "id" ((written_junction junction).spaced hblank hline)
  have hhome : Written (IsRelationship · home) _ := written_ofOne "Address" "home_id" "id"
  -- the schema has the relationships the other way round
  have horder : [("tags", tags), ("home", home)].Perm users.relationships.entries := .swap _ _ _
  have hrelationships : Written (IsMap IsRelationship · users.relationships) _ :=
    (WrittenEntries.cons "tags" htags (.cons "home" hhome .nil)).written_map horder
  have hprimary : Written (IsColumns · users.primaryKey) (Json.quoted "uid") := by
    obtain ⟨value, hvalue, hcolumn⟩ := written_quoted "uid"
    exact ⟨value, hvalue, .inr ⟨"uid", rfl, hcolumn⟩⟩
  -- one letter of the name of the table is written by its code
  have hcode : Json.IsCode ['0', '0', '6', '5'] 'e'.toNat :=
    Json.isCode_hexDigit (n := 0x65) (by decide)
  have hspells : Json.Spells "us\\u0065rs".toList "users".toList :=
    Json.spells_escape_append 'u' (Json.spells_escape_append 's'
      (.code hcode (Json.spells_escape "rs".toList)))
  have hstorage : Written (·.IsText users.storageName) "\"us\\u0065rs\"" :=
    ⟨_, .string hspells, _, rfl, hspells⟩
  have hentity : Written (IsClassMap · users) text := by
    obtain ⟨json, hjson, fields, hobject, hnames, hprimary, hrelationships, hstorage⟩ :=
      WrittenParts.exists_record (.cons "primary_key" hprimary
        (.cons "relationships" hrelationships (.cons "storage_name" hstorage .nil)))
    have hkeys : "keys" ∉ fields.map Prod.fst := by simp [hnames]
    exact ⟨json, hjson, fields, isRecord_of_names hobject hnames (by simp) (by simp),
      hstorage, .inl hprimary, .inr ⟨hkeys, rfl⟩, .inl hrelationships⟩
  have hschema : Written (IsMap IsClassMap · (.ofList [("User", users)])) _ :=
    (WrittenEntries.cons "User" (hentity.spaced htab hreturn) .nil).written_map (.refl _)
  exact ofText_of_isDocument (hschema.spaced hline hblank)

end Schema

end EntitySql
