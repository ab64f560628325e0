import EntitySql.Proofs.Relation.Prefix
import EntitySql.Proofs.Relation.Resolution

/-! # Walks along relation paths

    Names *lead* from an entity to another one if each of them is a relationship
    of the entity that the names before it have led to. An inspector answers in
    one way, so names lead to one entity at most.

    Each entry of a resolved map stands for such a walk: the segments of its
    path lead from the root entity to the related one. On the other hand all
    paths of the closure can be resolved if each of them can be walked, since
    the parent of a path comes before it.
-/

namespace EntitySql

/-! ## Walks -/

/-- The names lead from an entity to the target, each as a relationship of the entity that has
    been reached. -/
def Inspector.Leads (inspector : Inspector) : String → List String → String → Prop
  | entity, [], target => entity = target
  | entity, name :: names, target =>
    ∃ r, inspector.relationship entity name = .ok (some r) ∧
      inspector.Leads r.related names target

/-- The segments before the last one lead to the owner: the root entity if there are none, and
    else what the parent of the path leads to. -/
def Inspector.LeadsToOwner (inspector : Inspector) (root path owner : String) : Prop :=
  inspector.Leads root (RelationPath.segments path).dropLast owner

section walks

variable {inspector : Inspector} {entity target : String} {names names' : List String}

theorem leads_append :
    inspector.Leads entity (names ++ names') target ↔
      ∃ middle, inspector.Leads entity names middle ∧ inspector.Leads middle names' target := by
  -- by induction on the names walked first: the walk ends in the middle entity
  induction names generalizing entity with
  | nil =>
    constructor
    · exact fun h => ⟨entity, rfl, h⟩
    · rintro ⟨middle, rfl, h⟩
      exact h
  | cons name names ih =>
    constructor
    · rintro ⟨r, hr, h⟩
      obtain ⟨middle, hfirst, hrest⟩ := ih.1 h
      exact ⟨middle, ⟨r, hr, hfirst⟩, hrest⟩
    · rintro ⟨middle, ⟨r, hr, hfirst⟩, hrest⟩
      exact ⟨r, hr, ih.2 ⟨middle, hfirst, hrest⟩⟩

theorem leads_single {name : String} :
    inspector.Leads entity [name] target ↔
      ∃ r, inspector.relationship entity name = .ok (some r) ∧ r.related = target := Iff.rfl

/-- Names lead to one entity at most. -/
theorem leads_unique {target' : String} (h : inspector.Leads entity names target)
    (h' : inspector.Leads entity names target') : target = target' := by
  induction names generalizing entity with
  | nil =>
    obtain rfl : entity = target := h
    exact h'
  | cons name names ih =>
    obtain ⟨r, hr, h⟩ := h
    obtain ⟨r', hr', h'⟩ := h'
    obtain rfl := Option.some.inj (Except.ok.inj (hr.symm.trans hr'))
    exact ih h h'

end walks

namespace RelationMap

variable {inspector : Inspector} {root : String}

/-! ## Entries are walks -/

/-- The segments of each path lead to what its entry is related to. -/
def Follows (inspector : Inspector) (root : String) (m : RelationMap) : Prop :=
  ∀ e ∈ m.entries,
    inspector.Leads root (RelationPath.segments e.path) e.relationship.related

theorem follows_empty : empty.Follows inspector root :=
  fun _ he => absurd he List.not_mem_nil

/-- What is found as the owner is what the segments before the last one lead to. -/
theorem Follows.leadsToOwner {m : RelationMap} {path owner : String}
    (hm : m.Follows inspector root) (h : m.ownerOf root path = .ok owner) :
    inspector.LeadsToOwner root path owner := by
  unfold Inspector.LeadsToOwner
  cases hparent : RelationPath.parent? path with
  | none =>
    unfold ownerOf at h
    rw [hparent] at h
    rw [(RelationPath.segments_of_parent?_eq_none hparent).1]
    exact Except.ok.inj h
  | some parent =>
    obtain ⟨f, hf, rfl, rfl⟩ := exists_parent_of_ownerOf h hparent
    -- the owner is where the walk along the parent ends, and the parent's entry follows its own
    -- walk
    rw [RelationPath.segments_of_parent?_eq_some hparent, List.dropLast_concat]
    exact hm f hf

/-- An entry that resolves its path is one more step of the walk to its owner. -/
theorem Follows.leads {m : RelationMap} {e : RelationEntry} (h : m.Follows inspector root)
    (he : e.Resolves inspector root m) :
    inspector.Leads root (RelationPath.segments e.path) e.relationship.related := by
  have hstep : inspector.Leads e.owner [e.name] e.relationship.related :=
    leads_single.2 ⟨e.relationship, he.relationship, rfl⟩
  rw [RelationPath.segments_eq_concat]
  exact leads_append.2 ⟨e.owner, h.leadsToOwner he.owner, hstep⟩

theorem Follows.add {m : RelationMap} {e : RelationEntry} (h : m.Follows inspector root)
    (he : e.Resolves inspector root m) : (m.add e).Follows inspector root := by
  intro f hf
  rcases List.mem_append.1 hf with hf | hf
  · exact h f hf
  · obtain rfl := List.mem_singleton.1 hf
    exact h.leads he

/-- So do entries that resolve their paths one after the other. -/
theorem ResolvedAfter.leads {m : RelationMap} {es : List RelationEntry}
    (h : ResolvedAfter inspector root m es) (hm : m.Follows inspector root) {e : RelationEntry}
    (he : e ∈ es) :
    inspector.Leads root (RelationPath.segments e.path) e.relationship.related := by
  induction es generalizing m with
  | nil => exact absurd he List.not_mem_nil
  | cons f es ih =>
    rcases List.mem_cons.1 he with rfl | he
    · exact hm.leads h.1
    · exact ih h.2 (hm.add h.1) he

/-! ## Parents first -/

/-- Paths each of which has its parent among those before it, or among those done before. -/
def ParentsFirst : List String → List String → Prop
  | _, [] => True
  | done, p :: ps =>
    (∀ parent, RelationPath.parent? p = some parent → parent ∈ done) ∧
      ParentsFirst (done ++ [p]) ps

/-- Sorted paths have their parents first, if all of these are there. -/
theorem parentsFirst_of_sorted {done ps : List String} (hsorted : RelationPath.Sorted ps)
    (hparents : ∀ p ∈ ps, ∀ parent, RelationPath.parent? p = some parent →
      parent ∈ done ∨ parent ∈ ps) : ParentsFirst done ps := by
  induction ps generalizing done with
  | nil => trivial
  | cons p ps ih =>
    obtain ⟨hfirst, hrest⟩ := List.pairwise_cons.1 hsorted
    constructor
    · intro parent hparent
      have hbefore := RelationPath.precedes_of_parent? hparent
      rcases hparents p List.mem_cons_self parent hparent with hdone | hmem
      · exact hdone
      · -- what comes before the first path is not among the others
        exfalso
        apply RelationPath.not_precedes_self p
        rcases List.mem_cons.1 hmem with rfl | hmem
        · exact hbefore
        · exact RelationPath.precedes_trans (hfirst parent hmem) hbefore
    · refine ih hrest fun q hq parent hparent => ?_
      rcases hparents q (List.mem_cons_of_mem p hq) parent hparent with hdone | hmem
      · exact Or.inl (List.mem_append_left _ hdone)
      · rcases List.mem_cons.1 hmem with rfl | hmem
        · exact Or.inl (List.mem_append_right _ (List.mem_singleton_self _))
        · exact Or.inr hmem

/-- A path that can be walked has an entry, if its parent has one. -/
theorem exists_resolves {m : RelationMap} {path target : String}
    (hm : m.Follows inspector root)
    (hparent : ∀ parent, RelationPath.parent? path = some parent →
      parent ∈ m.entries.map RelationEntry.path)
    (hleads : inspector.Leads root (RelationPath.segments path) target) :
    ∃ e : RelationEntry, e.path = path ∧ e.Resolves inspector root m := by
  obtain ⟨owner, howner⟩ : ∃ owner, m.ownerOf root path = .ok owner := by
    cases howner : m.ownerOf root path with
    | ok owner => exact ⟨owner, rfl⟩
    | error e =>
      obtain ⟨parent, hpath, hmissing, -⟩ := ownerOf_eq_error howner
      exact absurd (hparent parent hpath) hmissing
  -- the walk passes by the owner, and the last segment leads on from it
  rw [RelationPath.segments_eq_concat] at hleads
  obtain ⟨middle, hmiddle, r, hr, -⟩ := leads_append.1 hleads
  obtain rfl := leads_unique (hm.leadsToOwner howner) hmiddle
  exact ⟨⟨path, owner, r, RelationPath.aliasOf path⟩, rfl, howner, hr, rfl⟩

/-- Paths that can be walked can be resolved, in an order in which parents come first. -/
theorem exists_foldlM_extend {m : RelationMap} {ps : List String}
    (hm : m.Follows inspector root)
    (hfirst : ParentsFirst (m.entries.map RelationEntry.path) ps)
    (hleads : ∀ p ∈ ps, ∃ target, inspector.Leads root (RelationPath.segments p) target) :
    ∃ m', ps.foldlM (extend inspector root) m = .ok m' := by
  induction ps generalizing m with
  | nil => exact ⟨m, rfl⟩
  | cons p ps ih =>
    obtain ⟨hparent, hrest⟩ := hfirst
    obtain ⟨⟨target, htarget⟩, hothers⟩ := List.forall_mem_cons.1 hleads
    -- the parent of `p` is already in the map, so `p` resolves; the larger map follows the
    -- inspector again and serves the paths that are left
    obtain ⟨e, rfl, he⟩ := exists_resolves hm hparent htarget
    have hpaths : (m.add e).entries.map RelationEntry.path =
        m.entries.map RelationEntry.path ++ [e.path] := List.map_append
    rw [← hpaths] at hrest
    obtain ⟨m', hm'⟩ := ih (hm.add he) hrest hothers
    refine ⟨m', ?_⟩
    rw [List.foldlM_cons]
    exact Outcome.bind_eq_ok_iff.2 ⟨m.add e, extend_eq_ok_iff.2 ⟨e, rfl, he, rfl⟩, hm'⟩

/-- Paths of which none begins with a dot can be resolved if and only if all that are not empty
    can be walked from the root entity. -/
theorem exists_resolve_iff {paths : List String}
    (hdots : ∀ p ∈ paths, p.toList.head? ≠ some '.') :
    (∃ m, resolve inspector root paths = .ok m) ↔
      ∀ p ∈ paths, p ≠ "" →
        ∃ target, inspector.Leads root (RelationPath.segments p) target := by
  constructor
  · rintro ⟨m, hm⟩ p hp hne
    obtain ⟨hresolved, hpaths⟩ := resolve_eq_ok_iff.1 hm
    have hmem : p ∈ m.entries.map RelationEntry.path := by
      rw [hpaths]
      exact RelationPath.mem_closure_iff.2 ⟨hne, p, hp, RelationPath.DottedPrefix.refl p⟩
    obtain ⟨e, he, rfl⟩ := List.mem_map.1 hmem
    exact ⟨e.relationship.related, hresolved.leads follows_empty he⟩
  · intro hleads
    have hfirst : ParentsFirst [] (RelationPath.closure paths) :=
      parentsFirst_of_sorted (RelationPath.sorted_closure paths) fun q hq parent hparent =>
        Or.inr (RelationPath.parent_mem_closure hdots hq hparent)
    refine exists_foldlM_extend follows_empty hfirst fun q hq => ?_
    -- a walk along a path is one along each of its prefixes
    obtain ⟨hne, p, hp, hprefix⟩ := RelationPath.mem_closure_iff.1 hq
    have hpne : p ≠ "" := by
      rintro rfl
      rcases hprefix with rfl | ⟨rest, hrest⟩
      · exact hne rfl
      · exact absurd (congrArg String.toList hrest) (by simp)
    obtain ⟨target, htarget⟩ := hleads p hp hpne
    obtain ⟨names, hnames⟩ := hprefix.segments_prefix
    rw [← hnames] at htarget
    obtain ⟨middle, hmiddle, -⟩ := leads_append.1 htarget
    exact ⟨middle, hmiddle⟩

end RelationMap

end EntitySql
