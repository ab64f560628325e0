import EntitySql.Proofs.Relation.Walk

/-! # What resolution gives

    A map *is the resolution* of paths if it holds their dotted prefixes in
    order, each under the owner and the relationship that its parent leads to.
    There is one such map at most, and it is what resolving the paths gives. If
    no path begins with a dot there is one if and only if the paths can be
    walked.
-/

namespace EntitySql

namespace RelationMap

variable {inspector : Inspector} {root : String}

/-! ## Entries one by one -/

/-- Entries resolve their paths one after the other if each does so after those before it. -/
theorem resolvedAfter_iff {m : RelationMap} {es : List RelationEntry} :
    ResolvedAfter inspector root m es ↔
      ∀ (i : Nat) (e : RelationEntry), es[i]? = some e →
        e.Resolves inspector root ⟨m.entries ++ es.take i⟩ := by
  induction es generalizing m with
  | nil => exact ⟨fun _ i e he => absurd he (by simp), fun _ => trivial⟩
  | cons f es ih =>
    -- what comes before an entry of the rest is the same list, with the first entry in the map
    have hadd (i : Nat) : m.entries ++ (f :: es).take (i + 1) = (m.add f).entries ++ es.take i := by
      rw [List.take_succ_cons, List.append_cons]
      rfl
    constructor
    · rintro ⟨hf, hes⟩ i e he
      cases i with
      | zero =>
        obtain rfl := Option.some.inj he
        rw [List.take_zero, List.append_nil]
        exact hf
      | succ i =>
        rw [hadd]
        exact ih.1 hes i e he
    · intro h
      constructor
      · have hf := h 0 f rfl
        rw [List.take_zero, List.append_nil] at hf
        exact hf
      · refine ih.2 fun i e he => ?_
        rw [← hadd]
        exact h (i + 1) e he

/-- An entry is found under its path if no other one has this path. -/
theorem entry_eq_ok_of_mem {m : RelationMap} (hnodup : (m.entries.map RelationEntry.path).Nodup)
    {e : RelationEntry} (he : e ∈ m.entries) : m.entry e.path = .ok e := by
  obtain ⟨f, hf⟩ : ∃ f, m.find? e.path = some f :=
    Option.isSome_iff_exists.1 (List.find?_isSome.2 ⟨e, he, beq_self_eq_true _⟩)
  obtain ⟨hmem, hpath⟩ := find?_eq_some hf
  obtain rfl : f = e := List.inj_on_of_nodup_map hnodup hmem he hpath
  exact entry_eq_ok_iff.2 hf

/-! ## The resolution of paths -/

/-- The map holds the dotted prefixes of the paths that are not empty, each once, in order of their
    number of segments and then of their texts. The owner of a single segment is the root entity,
    and that of any other path is what the entry of its parent, which comes before it, is related
    to. The relationship is the one that the owner declares under the last segment. -/
structure IsResolution (inspector : Inspector) (root : String) (paths : List String)
    (m : RelationMap) : Prop where
  mem_paths_iff : ∀ path, path ∈ m.entries.map RelationEntry.path ↔
    path ≠ "" ∧ ∃ p ∈ paths, RelationPath.DottedPrefix path p
  nodup : (m.entries.map RelationEntry.path).Nodup
  ordered : (m.entries.map RelationEntry.path).Pairwise fun p q =>
    RelationPath.depth p < RelationPath.depth q ∨
      RelationPath.depth p = RelationPath.depth q ∧ p < q
  owner_root : ∀ e ∈ m.entries, RelationPath.depth e.path = 1 → e.owner = root
  owner_parent : ∀ (i : Nat) (e : RelationEntry), m.entries[i]? = some e →
    RelationPath.depth e.path ≠ 1 →
      ∃ f ∈ m.entries.take i, e.path = f.path ++ "." ++ e.name ∧
        e.owner = f.relationship.related
  name : ∀ e ∈ m.entries, (RelationPath.segments e.path).getLast? = some e.name
  relationship : ∀ e ∈ m.entries,
    inspector.relationship e.owner e.name = .ok (some e.relationship)
  aliasName : ∀ e ∈ m.entries, e.aliasName = RelationPath.aliasOf e.path

/-- Resolving paths gives their resolution. -/
theorem isResolution_of_resolve {paths : List String} {m : RelationMap}
    (h : resolve inspector root paths = .ok m) : m.IsResolution inspector root paths := by
  obtain ⟨hresolved, hpaths⟩ := resolve_eq_ok_iff.1 h
  -- each entry resolves its path after those before it, from which the parts are read off
  have hresolves : ∀ (i : Nat) (e : RelationEntry), m.entries[i]? = some e →
      e.Resolves inspector root ⟨m.entries.take i⟩ := resolvedAfter_iff.1 hresolved
  refine ⟨?_, nodup_paths_of_resolve h, ?_, ?_, ?_, ?_, ?_, ?_⟩
  · intro path
    rw [hpaths]
    exact RelationPath.mem_closure_iff
  · rw [hpaths]
    exact (RelationPath.sorted_closure paths).imp RelationPath.precedes_iff.1
  · intro e he hdepth
    obtain ⟨i, hi⟩ := List.getElem?_of_mem he
    have howner := (hresolves i e hi).owner
    unfold ownerOf at howner
    rw [RelationPath.parent?_eq_none_iff.2 hdepth] at howner
    exact (Except.ok.inj howner).symm
  · intro i e hi hdepth
    obtain ⟨parent, hparent⟩ := Option.ne_none_iff_exists'.1
      (mt RelationPath.parent?_eq_none_iff.1 hdepth)
    obtain ⟨f, hf, rfl, howner⟩ := exists_parent_of_ownerOf (hresolves i e hi).owner hparent
    exact ⟨f, hf, (RelationPath.eq_of_parent?_eq_some hparent).1, howner⟩
  · intro e _
    exact RelationPath.getLast?_segments e.path
  · intro e he
    obtain ⟨i, hi⟩ := List.getElem?_of_mem he
    exact (hresolves i e hi).relationship
  · intro e he
    exact hresolved.aliasName he

/-- The paths of a resolution are the closure: both are sorted and hold the same paths. -/
theorem IsResolution.paths_eq {paths : List String} {m : RelationMap}
    (h : m.IsResolution inspector root paths) :
    m.entries.map RelationEntry.path = RelationPath.closure paths := by
  have hsorted : RelationPath.Sorted (m.entries.map RelationEntry.path) :=
    h.ordered.imp RelationPath.precedes_iff.2
  refine hsorted.eq_of_mem_iff (RelationPath.sorted_closure paths) ?_
  intro path
  rw [h.mem_paths_iff, RelationPath.mem_closure_iff]

/-- Resolving paths gives every map that is their resolution. -/
theorem resolve_of_isResolution {paths : List String} {m : RelationMap}
    (h : m.IsResolution inspector root paths) : resolve inspector root paths = .ok m := by
  refine resolve_eq_ok_iff.2 ⟨resolvedAfter_iff.2 fun i e hi => ?_, h.paths_eq⟩
  have he : e ∈ m.entries := List.mem_of_getElem? hi
  refine ⟨?_, h.relationship e he, h.aliasName e he⟩
  show ownerOf ⟨m.entries.take i⟩ root e.path = .ok e.owner
  unfold ownerOf
  cases hparent : RelationPath.parent? e.path with
  | none => rw [h.owner_root e he (RelationPath.parent?_eq_none_iff.1 hparent)]
  | some parent =>
    have hdepth : RelationPath.depth e.path ≠ 1 := by
      rw [Ne, ← RelationPath.parent?_eq_none_iff, hparent]
      exact nofun
    obtain ⟨f, hf, hpath, howner⟩ := h.owner_parent i e hi hdepth
    -- what stands before the last segment and its dot is the parent
    obtain rfl : parent = f.path := by
      obtain ⟨hsplit, -⟩ := RelationPath.eq_of_parent?_eq_some hparent
      have hsame : parent ++ ("." ++ e.name) = f.path ++ ("." ++ e.name) := by
        rw [← String.append_assoc, ← String.append_assoc, ← hpath]
        exact hsplit.symm
      exact (String.append_left_inj _).1 hsame
    have hnodup : ((m.entries.take i).map RelationEntry.path).Nodup :=
      h.nodup.sublist ((List.take_sublist i m.entries).map RelationEntry.path)
    exact Outcome.map_eq_ok_iff.2 ⟨f, entry_eq_ok_of_mem hnodup hf, howner.symm⟩

/-- Resolving paths gives a map if and only if the map is the resolution of the paths. If no path
    begins with a dot there is such a map if and only if each path that is not empty can be walked
    from the root entity, segment by segment. -/
theorem resolve_iff_isResolution_and_exists_iff_leads (inspector : Inspector) (root : String)
    (paths : List String) :
    (∀ m, resolve inspector root paths = .ok m ↔ m.IsResolution inspector root paths) ∧
      ((∀ p ∈ paths, p.toList.head? ≠ some '.') →
        ((∃ m, resolve inspector root paths = .ok m) ↔
          ∀ p ∈ paths, p ≠ "" →
            ∃ target, inspector.Leads root (RelationPath.segments p) target)) :=
  ⟨fun _ => ⟨isResolution_of_resolve, resolve_of_isResolution⟩, exists_resolve_iff⟩

/-- Paths that overlap, one that is given twice and an empty one. Each relation is resolved once,
    and those of one segment come first although `address.country` is before `posts` as a text. -/
theorem resolve_iff_isResolution_and_exists_iff_leads_overlapping :
    let user : ClassMap := { ClassMap.ofTable "users" with
      relationships := .ofList [("address", .ofOne "Address" "address_id" "id"),
        ("posts", .ofMany "Post" "id" "author_id")] }
    let address : ClassMap := { ClassMap.ofTable "addresses" with
      relationships := .ofList [("country", .ofOne "Country" "country_id" "id")] }
    let post : ClassMap := { ClassMap.ofTable "posts" with
      relationships := .ofList
        [("tags", .through "Tag" "id" "id" ⟨.table "post_tags", "post_id", "tag_id"⟩)] }
    let schema : Schema := .ofList [("User", user), ("Address", address), ("Post", post)]
    let paths := ["posts.tags", "address.country", "", "address", "posts.tags"]
    (∀ p ∈ paths, p.toList.head? ≠ some '.') ∧
      ∃ m, resolve schema.inspector "User" paths = .ok m ∧
        m.entries.map (fun e => (e.path, e.owner)) = [("address", "User"), ("posts", "User"),
          ("address.country", "Address"), ("posts.tags", "Post")] ∧
        m.IsResolution schema.inspector "User" paths ∧
        ∀ p ∈ paths, p ≠ "" →
          ∃ target, schema.inspector.Leads "User" (RelationPath.segments p) target := by
  intro user address post schema paths
  have hdots : ∀ p ∈ paths, p.toList.head? ≠ some '.' := by decide +kernel
  have hview : (resolve schema.inspector "User" paths).map (fun m =>
      m.entries.map fun e => (e.path, e.owner)) = .ok [("address", "User"), ("posts", "User"),
        ("address.country", "Address"), ("posts.tags", "Post")] := by
    decide +kernel
  obtain ⟨m, hm, hentries⟩ := Outcome.map_eq_ok_iff.1 hview
  obtain ⟨hiff, hexists⟩ :=
    resolve_iff_isResolution_and_exists_iff_leads schema.inspector "User" paths
  exact ⟨hdots, m, hm, hentries, (hiff m).1 hm, (hexists hdots).1 ⟨m, hm⟩⟩

end RelationMap

end EntitySql
