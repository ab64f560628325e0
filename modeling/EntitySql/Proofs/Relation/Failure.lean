import EntitySql.Proofs.Relation.Walk

/-! # Where resolution fails

    A path *can be resolved* if it does not begin with a dot and its segments
    lead somewhere. Resolution fails at the first path that cannot be, in the
    order in which paths are resolved, and on an error that this path alone
    decides (`resolve_eq_error_iff`): an error of the inspector, or that the
    relation named by the last segment is not found on the entity that the
    segments before it lead to.

    A path that begins with a dot is the exception. Its first segment is empty,
    and the empty path is never among those that are resolved, so the parent of
    the path is missing.
-/

namespace EntitySql

/-! ## Errors of a schema -/

/-- A schema fails on an entity only because it has no class map for it. -/
theorem Schema.relationship_eq_error {schema : Schema} {entity name : String} {e : SqlError}
    (h : schema.inspector.relationship entity name = .error e) : e = .entityNotFound entity := by
  replace h : schema.classMap entity = .error e := Outcome.map_eq_error_iff.1 h
  unfold classMap at h
  cases hget : OrderedMap.get? schema entity with
  | some m =>
    rw [hget] at h
    exact absurd h nofun
  | none =>
    rw [hget] at h
    exact (Except.error.inj h).symm

/-! ## Paths that can be resolved -/

/-- The path does not begin with a dot, and its segments lead somewhere. -/
def Inspector.Reaches (inspector : Inspector) (root path : String) : Prop :=
  ¬ RelationPath.LeadingDot path ∧
    ∃ target, inspector.Leads root (RelationPath.segments path) target

namespace RelationMap

variable {inspector : Inspector} {root : String}

/-- The first of the dotted prefixes of the paths, by number of segments and then by text, that
    cannot be resolved. -/
structure IsFirstUnresolved (inspector : Inspector) (root : String) (paths : List String)
    (path : String) : Prop where
  isPrefix : path ≠ "" ∧ ∃ p ∈ paths, RelationPath.DottedPrefix path p
  unresolved : ¬ inspector.Reaches root path
  isFirst : ∀ q, q ≠ "" → (∃ p ∈ paths, RelationPath.DottedPrefix q p) →
    RelationPath.depth q < RelationPath.depth path ∨
      RelationPath.depth q = RelationPath.depth path ∧ q < path →
    inspector.Reaches root q

/-- The error for a path that cannot be resolved while those before it can. -/
inductive FailsWith (inspector : Inspector) (root path : String) : SqlError → Prop where
  /-- The parent is empty, or has a leading dot itself -/
  | leadingDot (hdot : RelationPath.LeadingDot path) :
      FailsWith inspector root path (.pathNotMapped "")
  /-- The inspector fails on the relationship -/
  | lookup {owner : String} {e : SqlError} (hdot : ¬ RelationPath.LeadingDot path)
      (howner : inspector.LeadsToOwner root path owner)
      (h : inspector.relationship owner (RelationPath.lastSegment path) = .error e) :
      FailsWith inspector root path e
  /-- The owner does not declare the relationship -/
  | notFound {owner : String} (hdot : ¬ RelationPath.LeadingDot path)
      (howner : inspector.LeadsToOwner root path owner)
      (h : inspector.relationship owner (RelationPath.lastSegment path) = .ok none) :
      FailsWith inspector root path
        (.relationNotFound owner (RelationPath.lastSegment path) path)

/-- One path has one error at most. -/
theorem FailsWith.unique {path : String} {e e' : SqlError}
    (h : FailsWith inspector root path e) (h' : FailsWith inspector root path e') : e = e' := by
  -- two different cases contradict each other by the dot or by what the inspector answers; in the
  -- same case the owner is unique, so the answers are compared
  cases h with
  | leadingDot hdot =>
    cases h' with
    | leadingDot => rfl
    | lookup hdot' => exact absurd hdot hdot'
    | notFound hdot' => exact absurd hdot hdot'
  | lookup hdot howner hlookup =>
    cases h' with
    | leadingDot hdot' => exact absurd hdot' hdot
    | lookup _ howner' hlookup' =>
      obtain rfl := leads_unique howner howner'
      exact Except.error.inj (hlookup.symm.trans hlookup')
    | notFound _ howner' hlookup' =>
      obtain rfl := leads_unique howner howner'
      exact absurd (hlookup.symm.trans hlookup') nofun
  | notFound hdot howner hlookup =>
    cases h' with
    | leadingDot hdot' => exact absurd hdot' hdot
    | lookup _ howner' hlookup' =>
      obtain rfl := leads_unique howner howner'
      exact absurd (hlookup.symm.trans hlookup') nofun
    | notFound _ howner' hlookup' =>
      obtain rfl := leads_unique howner howner'
      rfl

/-- A path with an error cannot be resolved. -/
theorem FailsWith.not_reaches {path : String} {e : SqlError}
    (h : FailsWith inspector root path e) : ¬ inspector.Reaches root path := by
  rintro ⟨hdot, target, htarget⟩
  -- the last step of the walk is the relationship that has not been found
  rw [RelationPath.segments_eq_concat] at htarget
  obtain ⟨middle, hmiddle, r, hr, -⟩ := leads_append.1 htarget
  cases h with
  | leadingDot hdot' => exact hdot hdot'
  | lookup _ howner hlookup =>
    obtain rfl := leads_unique howner hmiddle
    exact absurd (hlookup.symm.trans hr) nofun
  | notFound _ howner hlookup =>
    obtain rfl := leads_unique howner hmiddle
    exact absurd (hlookup.symm.trans hr) nofun

/-! ## Maps without leading dots -/

/-- No path of the map is empty or begins with a dot. -/
def Undotted (m : RelationMap) : Prop :=
  ∀ e ∈ m.entries, e.path ≠ "" ∧ ¬ RelationPath.LeadingDot e.path

theorem undotted_empty : empty.Undotted := fun _ he => absurd he List.not_mem_nil

/-- A path whose parent is in such a map does not begin with a dot. -/
theorem Undotted.not_leadingDot {m : RelationMap} {path owner : String} (h : m.Undotted)
    (howner : m.ownerOf root path = .ok owner) : ¬ RelationPath.LeadingDot path := by
  intro hdot
  obtain ⟨parent, hparent⟩ := hdot.exists_parent?
  obtain ⟨f, hf, rfl, -⟩ := exists_parent_of_ownerOf howner hparent
  obtain ⟨hne, hnot⟩ := h f hf
  rcases (RelationPath.leadingDot_iff_of_parent? hparent).1 hdot with hempty | hdot
  · exact hne hempty
  · exact hnot hdot

theorem Undotted.add {m : RelationMap} {e : RelationEntry} (h : m.Undotted) (hne : e.path ≠ "")
    (he : e.Resolves inspector root m) : (m.add e).Undotted := by
  intro f hf
  rcases List.mem_append.1 hf with hf | hf
  · exact h f hf
  · obtain rfl := List.mem_singleton.1 hf
    exact ⟨hne, h.not_leadingDot he.owner⟩

/-- Paths that are resolved one after the other do not begin with a dot. -/
theorem ResolvedAfter.undotted {m : RelationMap} {es : List RelationEntry}
    (h : ResolvedAfter inspector root m es) (hm : m.Undotted) (hne : ∀ e ∈ es, e.path ≠ "") :
    ∀ e ∈ es, ¬ RelationPath.LeadingDot e.path := by
  induction es generalizing m with
  | nil => exact fun e he => absurd he List.not_mem_nil
  | cons f es ih =>
    obtain ⟨hf, hes⟩ := List.forall_mem_cons.1 hne
    exact List.forall_mem_cons.2 ⟨hm.not_leadingDot h.1.owner, ih h.2 (hm.add hf h.1) hes⟩

/-- After paths have been resolved, the map holds them, and each of them can be resolved. -/
theorem of_foldlM_extend {paths : List String} {m : RelationMap}
    (h : paths.foldlM (extend inspector root) empty = .ok m) (hne : ∀ p ∈ paths, p ≠ "") :
    m.entries.map RelationEntry.path = paths ∧ m.Follows inspector root ∧ m.Undotted := by
  obtain ⟨es, rfl, hes, hentries⟩ := foldlM_extend_eq_ok_iff.1 h
  obtain rfl : m.entries = es := hentries
  replace hne : ∀ e ∈ m.entries, e.path ≠ "" := fun e he => hne e.path (List.mem_map_of_mem he)
  refine ⟨rfl, fun e he => hes.leads follows_empty he, fun e he => ⟨hne e he, ?_⟩⟩
  exact hes.undotted undotted_empty hne e he

theorem reaches_of_mem {m : RelationMap} (hm : m.Follows inspector root) (hdots : m.Undotted)
    {path : String} (h : path ∈ m.entries.map RelationEntry.path) :
    inspector.Reaches root path := by
  obtain ⟨e, he, rfl⟩ := List.mem_map.1 h
  exact ⟨(hdots e he).2, e.relationship.related, hm e he⟩

/-! ## The step that fails -/

/-- A step fails with the error for its path, if the parent of this path is in the map unless it
    is empty. -/
theorem failsWith_of_extend {m : RelationMap} {path : String} {e : SqlError}
    (hm : m.Follows inspector root) (hdots : m.Undotted)
    (hparents : ∀ parent, RelationPath.parent? path = some parent → parent ≠ "" →
      parent ∈ m.entries.map RelationEntry.path)
    (h : extend inspector root m path = .error e) : FailsWith inspector root path e := by
  rcases extend_eq_error h with howner | ⟨owner, howner, hfound⟩
  · obtain ⟨parent, hparent, hmissing, rfl⟩ := ownerOf_eq_error howner
    -- a parent with a name stands before its path, so only the empty one can be missing
    obtain rfl : parent = "" := by
      by_contra hne
      exact hmissing (hparents parent hparent hne)
    exact .leadingDot ((RelationPath.leadingDot_iff_of_parent? hparent).2 (Or.inl rfl))
  · have hdot := hdots.not_leadingDot howner
    have hleads := hm.leadsToOwner howner
    rcases hfound with hfails | ⟨hnone, rfl⟩
    · exact .lookup hdot hleads hfails
    · exact .notFound hdot hleads hnone

/-! ## The first path that cannot be resolved -/

variable {paths : List String}

/-- There is one first path that cannot be resolved. -/
theorem IsFirstUnresolved.unique {path path' : String}
    (h : IsFirstUnresolved inspector root paths path)
    (h' : IsFirstUnresolved inspector root paths path') : path = path' := by
  by_contra hne
  by_cases hbefore : RelationPath.precedes path path' = true
  · exact h.unresolved
      (h'.isFirst path h.isPrefix.1 h.isPrefix.2 (RelationPath.precedes_iff.1 hbefore))
  · have hafter := RelationPath.precedes_of_not hne hbefore
    exact h'.unresolved
      (h.isFirst path' h'.isPrefix.1 h'.isPrefix.2 (RelationPath.precedes_iff.1 hafter))

/-- Each path of the closure can be resolved if all paths are. -/
theorem reaches_of_resolve {m : RelationMap} (h : resolve inspector root paths = .ok m)
    {path : String} (hpath : path ∈ RelationPath.closure paths) :
    inspector.Reaches root path := by
  have hne : ∀ p ∈ RelationPath.closure paths, p ≠ "" :=
    fun p hp => (RelationPath.mem_closure_iff.1 hp).1
  obtain ⟨hpaths, hm, hdots⟩ := of_foldlM_extend h hne
  exact reaches_of_mem hm hdots (hpaths ▸ hpath)

/-- What comes before a path of a sorted list is in the part before it. -/
theorem mem_of_precedes {done rest : List String} {path q : String}
    (hsorted : RelationPath.Sorted (done ++ path :: rest)) (hq : q ∈ done ++ path :: rest)
    (hbefore : RelationPath.precedes q path = true) : q ∈ done := by
  obtain ⟨-, hafter, -⟩ := List.pairwise_append.1 hsorted
  rcases List.mem_append.1 hq with hq | hq
  · exact hq
  · exfalso
    apply RelationPath.not_precedes_self q
    rcases List.mem_cons.1 hq with rfl | hq
    · exact hbefore
    · exact RelationPath.precedes_trans hbefore ((List.pairwise_cons.1 hafter).1 q hq)

/-- Resolution fails at the first path that cannot be resolved. -/
theorem exists_of_resolve_eq_error {e : SqlError} (h : resolve inspector root paths = .error e) :
    ∃ path, IsFirstUnresolved inspector root paths path ∧ FailsWith inspector root path e := by
  obtain ⟨done, path, rest, m, hclosure, hdone, hfails⟩ := Outcome.exists_of_foldlM_eq_error h
  have hmem : path ∈ RelationPath.closure paths := by
    rw [hclosure]
    exact List.mem_append_right _ List.mem_cons_self
  -- what comes before the path has been resolved
  have hbefore : ∀ q ∈ RelationPath.closure paths, RelationPath.precedes q path = true →
      q ∈ done := by
    have hsorted := RelationPath.sorted_closure paths
    rw [hclosure] at hsorted ⊢
    exact fun q hq => mem_of_precedes hsorted hq
  have hne : ∀ p ∈ done, p ≠ "" := by
    intro p hp
    have hp' : p ∈ RelationPath.closure paths := by
      rw [hclosure]
      exact List.mem_append_left _ hp
    exact (RelationPath.mem_closure_iff.1 hp').1
  obtain ⟨hpaths, hm, hdots⟩ := of_foldlM_extend hdone hne
  have herror : FailsWith inspector root path e := by
    refine failsWith_of_extend hm hdots (fun parent hparent hparentne => ?_) hfails
    rw [hpaths]
    exact hbefore parent (RelationPath.parent_mem_closure_of_ne hmem hparent hparentne)
      (RelationPath.precedes_of_parent? hparent)
  refine ⟨path, ⟨RelationPath.mem_closure_iff.1 hmem, herror.not_reaches, ?_⟩, herror⟩
  intro q hqne hq hearlier
  refine reaches_of_mem hm hdots ?_
  rw [hpaths]
  exact hbefore q (RelationPath.mem_closure_iff.2 ⟨hqne, hq⟩)
    (RelationPath.precedes_iff.2 hearlier)

/-- It fails if there is such a path, and on the error for this path. -/
theorem IsFirstUnresolved.exists_error {path : String}
    (h : IsFirstUnresolved inspector root paths path) :
    ∃ e, resolve inspector root paths = .error e ∧ FailsWith inspector root path e := by
  cases hresolve : resolve inspector root paths with
  | ok m =>
    exact absurd (reaches_of_resolve hresolve (RelationPath.mem_closure_iff.2 h.isPrefix))
      h.unresolved
  | error e =>
    obtain ⟨path', hfirst, herror⟩ := exists_of_resolve_eq_error hresolve
    obtain rfl := h.unique hfirst
    exact ⟨e, rfl, herror⟩

/-! ## The error of a resolution -/

/-- Resolution fails if and only if there is a path that cannot be resolved, and on the error for
    the first one: that of the inspector, or that the relationship named by the last segment is not
    found on the entity that the segments before it lead to. Unless the inspector itself says so,
    a path is reported to be missing from the map if and only if the first path that cannot be
    resolved begins with a dot. -/
theorem resolve_eq_error_iff (inspector : Inspector) (root : String) (paths : List String) :
    (∀ e, resolve inspector root paths = .error e ↔
      ∃ path, IsFirstUnresolved inspector root paths path ∧ FailsWith inspector root path e) ∧
    ((∀ entity name q, inspector.relationship entity name ≠ .error (.pathNotMapped q)) →
      ∀ q, resolve inspector root paths = .error (.pathNotMapped q) ↔
        q = "" ∧ ∃ path, IsFirstUnresolved inspector root paths path ∧
          RelationPath.LeadingDot path) := by
  have hfails : ∀ e, resolve inspector root paths = .error e ↔
      ∃ path, IsFirstUnresolved inspector root paths path ∧ FailsWith inspector root path e := by
    refine fun e => ⟨exists_of_resolve_eq_error, ?_⟩
    -- the first unresolved path does fail, and a path fails with one error only
    rintro ⟨path, hfirst, herror⟩
    obtain ⟨e', hresolve, herror'⟩ := hfirst.exists_error
    rw [hresolve, herror.unique herror']
  refine ⟨hfails, fun hlookups q => (hfails _).trans ?_⟩
  constructor
  · rintro ⟨path, hfirst, herror⟩
    cases herror with
    | leadingDot hdot => exact ⟨rfl, path, hfirst, hdot⟩
    | lookup _ _ hlookup => exact absurd hlookup (hlookups _ _ q)
  · rintro ⟨rfl, path, hfirst, hdot⟩
    exact ⟨path, hfirst, .leadingDot hdot⟩

/-- A schema in which a post has neither an author nor tags. Of two paths with two segments the one
    that begins with a dot comes first, as its text does. Without it the path that is given last
    comes first: its text is before `posts.tags`, and `posts.tags.name` has more segments. -/
theorem resolve_eq_error_iff_author :
    let user : ClassMap := { ClassMap.ofTable "users" with
      relationships := .ofList [("posts", .ofMany "Post" "id" "author_id")] }
    let schema : Schema := .ofList [("User", user), ("Post", ClassMap.ofTable "posts")]
    (∀ entity name q, schema.inspector.relationship entity name ≠ .error (.pathNotMapped q)) ∧
      resolve schema.inspector "User" ["posts.author", ".posts"] = .error (.pathNotMapped "") ∧
      (∃ path, IsFirstUnresolved schema.inspector "User" ["posts.author", ".posts"] path ∧
        RelationPath.LeadingDot path) ∧
      resolve schema.inspector "User" ["posts.tags.name", "posts.author"] =
        .error (.relationNotFound "Post" "author" "posts.author") ∧
      (∃ path, IsFirstUnresolved schema.inspector "User" ["posts.tags.name", "posts.author"] path ∧
        FailsWith schema.inspector "User" path
          (.relationNotFound "Post" "author" "posts.author")) := by
  intro user schema
  have hlookups : ∀ entity name q,
      schema.inspector.relationship entity name ≠ .error (.pathNotMapped q) :=
    fun entity name q h => absurd (schema.relationship_eq_error h) nofun
  have hdotted : resolve schema.inspector "User" ["posts.author", ".posts"] =
      .error (.pathNotMapped "") := by
    decide +kernel
  have hplain : resolve schema.inspector "User" ["posts.tags.name", "posts.author"] =
      .error (.relationNotFound "Post" "author" "posts.author") := by
    decide +kernel
  obtain ⟨-, hmissing⟩ :=
    resolve_eq_error_iff schema.inspector "User" ["posts.author", ".posts"]
  obtain ⟨hfails, -⟩ :=
    resolve_eq_error_iff schema.inspector "User" ["posts.tags.name", "posts.author"]
  exact ⟨hlookups, hdotted, ((hmissing hlookups "").1 hdotted).2, hplain, (hfails _).1 hplain⟩

/-- A user has no relationship named `a`, and none without a name. The path that begins with a dot
    is the only one to be resolved, yet the error is about the empty path. -/
theorem resolve_leadingDot :
    let user : ClassMap := { ClassMap.ofTable "users" with
      relationships := .ofList [("posts", .ofMany "Post" "id" "author_id")] }
    let schema : Schema := .ofList [("User", user), ("Post", ClassMap.ofTable "posts")]
    (∀ entity name q, schema.inspector.relationship entity name ≠ .error (.pathNotMapped q)) ∧
      RelationPath.closure [".a"] = [".a"] ∧
      resolve schema.inspector "User" [".a"] = .error (.pathNotMapped "") ∧
      (∀ owner, resolve schema.inspector "User" [".a"] ≠
        .error (.relationNotFound owner "a" ".a")) := by
  intro user schema
  have hmissing : resolve schema.inspector "User" [".a"] = .error (.pathNotMapped "") := by
    decide +kernel
  -- a schema's inspector has no error of this kind, so the error comes from the missing parent
  refine ⟨fun entity name q h => absurd (schema.relationship_eq_error h) nofun, by decide +kernel,
    hmissing, fun owner h => ?_⟩
  exact absurd (hmissing.symm.trans h) nofun

end RelationMap

end EntitySql
