import EntitySql.Proofs.Outcome
import EntitySql.Proofs.Relation.Order
import EntitySql.RelationMap

/-! # Resolution of relation paths

    An entry *resolves* its path after the entries of a map if its owner is the
    root entity or what the entry of the parent path leads to, its relationship
    is the one that the owner declares under the last segment, and its alias is
    that of the path.

    Resolution adds one such entry for each path of the closure, in order. So
    each path has one entry, and the entry of its parent comes before it.
-/

namespace EntitySql

/-! ## What an entry is -/

/-- The entry is what its path leads through, after the entries of the map. -/
structure RelationEntry.Resolves (inspector : Inspector) (root : String) (m : RelationMap)
    (e : RelationEntry) : Prop where
  owner : m.ownerOf root e.path = .ok e.owner
  relationship : inspector.relationship e.owner e.name = .ok (some e.relationship)
  aliasName : e.aliasName = RelationPath.aliasOf e.path

namespace RelationMap

/-- The map with an entry at its end. -/
def add (m : RelationMap) (e : RelationEntry) : RelationMap := ⟨m.entries ++ [e]⟩

/-- Entries that resolve their paths one after the other, the first one after those of the map. -/
def ResolvedAfter (inspector : Inspector) (root : String) :
    RelationMap → List RelationEntry → Prop
  | _, [] => True
  | m, e :: es => e.Resolves inspector root m ∧ ResolvedAfter inspector root (m.add e) es

/-! ## Looking up -/

theorem find?_eq_some {m : RelationMap} {path : String} {e : RelationEntry}
    (h : m.find? path = some e) : e ∈ m.entries ∧ e.path = path :=
  ⟨List.mem_of_find?_eq_some h, by simpa using List.find?_some h⟩

theorem entry_eq_ok_iff {m : RelationMap} {path : String} {e : RelationEntry} :
    m.entry path = .ok e ↔ m.find? path = some e := by
  unfold entry
  cases m.find? path <;> simp

/-- What is found is what the map has an entry for. -/
theorem exists_entry_iff {m : RelationMap} {path : String} :
    (∃ e, m.entry path = .ok e) ↔ path ∈ m.entries.map RelationEntry.path := by
  have hfound : (m.find? path).isSome = true ↔ path ∈ m.entries.map RelationEntry.path := by
    rw [find?, List.find?_isSome, List.mem_map]
    exact exists_congr fun e => and_congr_right fun _ => beq_iff_eq
  rw [← hfound, Option.isSome_iff_exists]
  exact exists_congr fun e => entry_eq_ok_iff

/-- An entry that is found is in the map, under its path. -/
theorem entry_eq_ok {m : RelationMap} {path : String} {e : RelationEntry}
    (h : m.entry path = .ok e) : e ∈ m.entries ∧ e.path = path :=
  find?_eq_some (entry_eq_ok_iff.1 h)

/-- A path whose relation has an owner is a single segment, or its parent is in the map. -/
theorem exists_parent_of_ownerOf {m : RelationMap} {root path parent owner : String}
    (h : m.ownerOf root path = .ok owner) (hparent : RelationPath.parent? path = some parent) :
    ∃ p ∈ m.entries, p.path = parent ∧ owner = p.relationship.related := by
  unfold ownerOf at h
  rw [hparent] at h
  obtain ⟨p, hp, howner⟩ := Outcome.map_eq_ok_iff.1 h
  obtain ⟨hmem, hpath⟩ := entry_eq_ok hp
  exact ⟨p, hmem, hpath, howner.symm⟩

/-- The owner is not found if the parent is not in the map. -/
theorem ownerOf_eq_error {m : RelationMap} {root path : String} {e : SqlError}
    (h : m.ownerOf root path = .error e) :
    ∃ parent, RelationPath.parent? path = some parent ∧
      parent ∉ m.entries.map RelationEntry.path ∧ e = .pathNotMapped parent := by
  unfold ownerOf at h
  cases hparent : RelationPath.parent? path with
  | none =>
    rw [hparent] at h
    exact absurd h nofun
  | some parent =>
    rw [hparent] at h
    -- a lookup fails only by missing the entry, as taking the target from an entry cannot fail
    replace h : m.entry parent = .error e := Outcome.map_eq_error_iff.1 h
    unfold entry at h
    cases hfind : m.find? parent with
    | some f =>
      rw [hfind] at h
      exact absurd h nofun
    | none =>
      rw [hfind] at h
      refine ⟨parent, rfl, fun hmem => ?_, (Except.error.inj h).symm⟩
      obtain ⟨f, hf, hpath⟩ := List.mem_map.1 hmem
      exact List.find?_eq_none.1 hfind f hf (beq_iff_eq.2 hpath)

/-! ## Resolution -/

variable {inspector : Inspector} {root : String}

/-- One more path is resolved by adding the entry that resolves it. -/
theorem extend_eq_ok_iff {m m' : RelationMap} {path : String} :
    extend inspector root m path = .ok m' ↔
      ∃ e : RelationEntry, e.path = path ∧ e.Resolves inspector root m ∧ m' = m.add e := by
  unfold extend
  rw [Outcome.bind_eq_ok_iff]
  constructor
  -- reading the run gives the owner, then the relationship; an answer without one is an error
  · rintro ⟨owner, howner, h⟩
    obtain ⟨found, hfound, h⟩ := Outcome.bind_eq_ok_iff.1 h
    cases found with
    | none => exact absurd h nofun
    | some relationship =>
      obtain rfl := Outcome.pure_eq_ok_iff.1 h
      exact ⟨⟨path, owner, relationship, RelationPath.aliasOf path⟩, rfl,
        ⟨howner, hfound, rfl⟩, rfl⟩
  · rintro ⟨⟨p, owner, relationship, aliasName⟩, rfl, ⟨howner, hfound, halias⟩, rfl⟩
    obtain rfl : aliasName = RelationPath.aliasOf p := halias
    exact ⟨owner, howner, Outcome.bind_eq_ok_iff.2 ⟨some relationship, hfound, rfl⟩⟩

/-- A path is not resolved if its owner is not found, or the relationship on the owner. -/
theorem extend_eq_error {m : RelationMap} {path : String} {e : SqlError}
    (h : extend inspector root m path = .error e) :
    m.ownerOf root path = .error e ∨
      ∃ owner, m.ownerOf root path = .ok owner ∧
        (inspector.relationship owner (RelationPath.lastSegment path) = .error e ∨
          inspector.relationship owner (RelationPath.lastSegment path) = .ok none ∧
            e = .relationNotFound owner (RelationPath.lastSegment path) path) := by
  unfold extend at h
  rcases Outcome.bind_eq_error_iff.1 h with howner | ⟨owner, howner, h⟩
  · exact Or.inl howner
  · refine Or.inr ⟨owner, howner, ?_⟩
    rcases Outcome.bind_eq_error_iff.1 h with hfails | ⟨found, hfound, h⟩
    · exact Or.inl hfails
    · cases found with
      | some relationship => exact absurd h nofun
      | none => exact Or.inr ⟨hfound, (Except.error.inj h).symm⟩

/-- Paths are resolved in order by adding entries that resolve them one after the other. -/
theorem foldlM_extend_eq_ok_iff {paths : List String} {m m' : RelationMap} :
    paths.foldlM (extend inspector root) m = .ok m' ↔
      ∃ es : List RelationEntry, es.map RelationEntry.path = paths ∧
        ResolvedAfter inspector root m es ∧ m'.entries = m.entries ++ es := by
  induction paths generalizing m with
  | nil =>
    rw [List.foldlM_nil, Outcome.pure_eq_ok_iff]
    constructor
    · rintro rfl
      exact ⟨[], rfl, trivial, by rw [List.append_nil]⟩
    · rintro ⟨es, hpaths, -, hentries⟩
      obtain rfl := List.map_eq_nil_iff.1 hpaths
      rw [List.append_nil] at hentries
      cases m
      cases m'
      exact congrArg RelationMap.mk hentries.symm
  | cons path paths ih =>
    -- the first entry is added to the map before the others are resolved
    rw [List.foldlM_cons, Outcome.bind_eq_ok_iff]
    constructor
    · rintro ⟨next, hnext, hrest⟩
      obtain ⟨e, rfl, he, rfl⟩ := extend_eq_ok_iff.1 hnext
      obtain ⟨es, rfl, hes, hentries⟩ := ih.1 hrest
      refine ⟨e :: es, rfl, ⟨he, hes⟩, ?_⟩
      rw [hentries, add, List.append_assoc]
      rfl
    · rintro ⟨es, hpaths, hes, hentries⟩
      obtain ⟨e, es, rfl, rfl, rfl⟩ := List.map_eq_cons_iff.1 hpaths
      refine ⟨m.add e, extend_eq_ok_iff.2 ⟨e, rfl, hes.1, rfl⟩, ih.2 ⟨es, rfl, hes.2, ?_⟩⟩
      rw [hentries, add, List.append_assoc]
      rfl

/-- A map that resolution leads to: each entry resolves its path after those before it, and
    the paths are those of the closure. -/
theorem resolve_eq_ok_iff {paths : List String} {m : RelationMap} :
    resolve inspector root paths = .ok m ↔
      ResolvedAfter inspector root .empty m.entries ∧
        m.entries.map RelationEntry.path = RelationPath.closure paths := by
  unfold resolve
  rw [foldlM_extend_eq_ok_iff]
  constructor
  · rintro ⟨es, hpaths, hes, hentries⟩
    obtain rfl : m.entries = es := hentries
    exact ⟨hes, hpaths⟩
  · rintro ⟨hes, hpaths⟩
    exact ⟨m.entries, hpaths, hes, rfl⟩

/-- Each entry bears the alias of its path. -/
theorem ResolvedAfter.aliasName {m : RelationMap} {es : List RelationEntry}
    (h : ResolvedAfter inspector root m es) {e : RelationEntry} (he : e ∈ es) :
    e.aliasName = RelationPath.aliasOf e.path := by
  induction es generalizing m with
  | nil => exact absurd he List.not_mem_nil
  | cons f es ih =>
    rcases List.mem_cons.1 he with rfl | he
    · exact h.1.aliasName
    · exact ih h.2 he

/-- Each path has one entry. -/
theorem nodup_paths_of_resolve {paths : List String} {m : RelationMap}
    (h : resolve inspector root paths = .ok m) : (m.entries.map RelationEntry.path).Nodup := by
  rw [(resolve_eq_ok_iff.1 h).2]
  exact RelationPath.nodup_closure paths

end RelationMap

end EntitySql
