import EntitySql.Proofs.Compile.Merge
import EntitySql.Proofs.Relation.Characterization

/-! # Entities that are loaded along

    A path leads to many rows if its relation does. What comes before the first
    such prefix of an eager path is loaded along: the columns of these prefixes
    are selected, each where it is mentioned first. The first such prefix itself
    is put off. Prefixes are met in increasing length, so the first one is the
    shortest, and what comes before it is what is shorter.

    While paths are loaded one after the other, the columns so far are those of
    the prefixes met so far (`Loading.Tracks`). A prefix that has been loaded is
    not loaded again, which makes no difference, since its columns are there.
-/

namespace EntitySql

/-! ## Scanning a list in order -/

section scan

variable {α : Type} {size : α → Nat} {found : α → Bool} {xs : List α}

/-- What comes before the first element that is looked for is what is smaller than all such
    elements, if sizes increase. -/
theorem takeWhile_eq_filter_smaller (h : xs.Pairwise fun a b => size a < size b) :
    xs.takeWhile (fun a => !found a) =
      xs.filter fun a => ∀ b ∈ xs, found b = true → size a < size b := by
  induction xs with
  | nil => rfl
  | cons x xs ih =>
    obtain ⟨hx, hxs⟩ := List.pairwise_cons.1 h
    by_cases hfound : found x = true
    · -- nothing is smaller than the first element
      have htake : (x :: xs).takeWhile (fun a => !found a) = [] :=
        List.takeWhile_cons_of_neg (by simpa using hfound)
      rw [htake]
      symm
      apply List.filter_eq_nil_iff.2
      intro a ha hsmaller
      have hlt : size a < size x := of_decide_eq_true hsmaller x List.mem_cons_self hfound
      rcases List.mem_cons.1 ha with rfl | ha
      · omega
      · have hgt := hx a ha
        omega
    · have htake : (x :: xs).takeWhile (fun a => !found a) =
          x :: xs.takeWhile fun a => !found a :=
        List.takeWhile_cons_of_pos (by simpa using hfound)
      -- the first element is smaller than all others and is not looked for itself
      have hfirst : ∀ b ∈ x :: xs, found b = true → size x < size b := by
        intro b hb hfoundb
        rcases List.mem_cons.1 hb with rfl | hb
        · exact absurd hfoundb hfound
        · exact hx b hb
      have hsame (a : α) : (∀ b ∈ x :: xs, found b = true → size a < size b) ↔
          ∀ b ∈ xs, found b = true → size a < size b := by
        rw [List.forall_mem_cons]
        exact and_iff_right fun hfoundx => absurd hfoundx hfound
      rw [htake, ih hxs, List.filter_cons, if_pos (decide_eq_true hfirst)]
      congr 1
      apply List.filter_congr
      intro a _
      exact (decide_eq_decide.2 (hsame a)).symm

/-- The first element that is looked for is the smallest one. -/
theorem find?_eq_find?_smallest (h : xs.Pairwise fun a b => size a < size b) :
    xs.find? found =
      xs.find? fun a => found a = true ∧ ∀ b ∈ xs, found b = true → size a ≤ size b := by
  induction xs with
  | nil => rfl
  | cons x xs ih =>
    obtain ⟨hx, hxs⟩ := List.pairwise_cons.1 h
    -- the first element found is the smallest one, since all later ones are larger
    by_cases hfound : found x = true
    · have hsmallest : found x = true ∧ ∀ b ∈ x :: xs, found b = true → size x ≤ size b := by
        refine ⟨hfound, fun b hb _ => ?_⟩
        rcases List.mem_cons.1 hb with rfl | hb
        · exact Nat.le_refl _
        · exact Nat.le_of_lt (hx b hb)
      rw [List.find?_cons_of_pos hfound]
      symm
      apply List.find?_cons_of_pos
      exact decide_eq_true hsmallest
    · have hsame : (fun a => decide (found a = true ∧
            ∀ b ∈ x :: xs, found b = true → size a ≤ size b)) =
          fun a => decide (found a = true ∧ ∀ b ∈ xs, found b = true → size a ≤ size b) := by
        funext a
        apply decide_eq_decide.2
        apply and_congr_right
        intro _
        rw [List.forall_mem_cons]
        exact and_iff_right fun hfoundx => absurd hfoundx hfound
      rw [List.find?_cons_of_neg hfound, hsame, ih hxs]
      symm
      apply List.find?_cons_of_neg
      simp [hfound]

end scan

/-! ## Prefixes of eager paths -/

namespace RelationMap

/-- Whether the map has a relation under the path that may lead to many rows. -/
def leadsToMany (m : RelationMap) (path : String) : Bool :=
  (m.find? path).any RelationEntry.isToMany

/-- The prefixes of a path that are shorter than each of its prefixes that lead to many rows. -/
def toOnePrefixes (m : RelationMap) (path : String) : List String :=
  (RelationPath.prefixes path).filter fun p =>
    ∀ r ∈ RelationPath.prefixes path, m.leadsToMany r = true → p.length < r.length

/-- The shortest prefix of a path that leads to many rows, if there is one. -/
def shortestToMany? (m : RelationMap) (path : String) : Option String :=
  (RelationPath.prefixes path).find? fun p => m.leadsToMany p = true ∧
    ∀ r ∈ RelationPath.prefixes path, m.leadsToMany r = true → p.length ≤ r.length

/-- The columns of the entity that a path of the map leads to, under the alias of the path. -/
def columnsOf (inspector : Inspector) (m : RelationMap) (path : String) : List Expression :=
  match m.entry path >>= relationColumns inspector with
  | .ok columns => columns
  | .error _ => []

theorem toOnePrefixes_eq_takeWhile (m : RelationMap) (path : String) :
    m.toOnePrefixes path =
      (RelationPath.prefixes path).takeWhile fun p => !m.leadsToMany p :=
  (takeWhile_eq_filter_smaller (RelationPath.pairwise_length_prefixes path)).symm

theorem shortestToMany?_eq_find? (m : RelationMap) (path : String) :
    m.shortestToMany? path = (RelationPath.prefixes path).find? m.leadsToMany :=
  (find?_eq_find?_smallest (RelationPath.pairwise_length_prefixes path)).symm

section prefixes

variable {m : RelationMap} {path p r : String}

theorem leadsToMany_of_entry {e : RelationEntry} (h : m.entry path = .ok e) :
    m.leadsToMany path = e.isToMany := by
  unfold leadsToMany
  rw [entry_eq_ok_iff.1 h]
  rfl

theorem mem_toOnePrefixes_iff :
    p ∈ m.toOnePrefixes path ↔ p ∈ RelationPath.prefixes path ∧
      ∀ r ∈ RelationPath.prefixes path, m.leadsToMany r = true → p.length < r.length := by
  rw [toOnePrefixes, List.mem_filter, decide_eq_true_iff]

/-- What is before a prefix that is loaded along is loaded along too. -/
theorem mem_toOnePrefixes_trans (hr : r ∈ RelationPath.prefixes p)
    (hp : p ∈ m.toOnePrefixes path) : r ∈ m.toOnePrefixes path := by
  obtain ⟨hmem, hshorter⟩ := mem_toOnePrefixes_iff.1 hp
  obtain ⟨hrpath, hlength⟩ := RelationPath.mem_prefixes_trans hr hmem
  refine mem_toOnePrefixes_iff.2 ⟨hrpath, fun s hs hmany => ?_⟩
  have hlt := hshorter s hs hmany
  omega

/-- A prefix that is loaded along does not lead to many rows. -/
theorem leadsToMany_of_mem_toOnePrefixes (hp : p ∈ m.toOnePrefixes path) :
    m.leadsToMany p = false := by
  obtain ⟨hmem, hshorter⟩ := mem_toOnePrefixes_iff.1 hp
  by_contra hmany
  rw [Bool.not_eq_false] at hmany
  exact Nat.lt_irrefl _ (hshorter p hmem hmany)

end prefixes

end RelationMap

/-! ## Loading step by step -/

namespace Loading

variable {inspector : Inspector} {m : RelationMap}

/-- The state of loading after some prefixes have been met and some have been put off: the columns
    are those of the prefixes that have been met, of which all are known, and only such prefixes
    have been loaded. -/
structure Tracks (inspector : Inspector) (m : RelationMap) (met putOff : List String)
    (l : Loading) : Prop where
  columns : l.columns.eraseDups = (met.flatMap (m.columnsOf inspector)).eraseDups
  loaded : l.loaded ⊆ met
  known : ∀ p ∈ met, ∃ e, m.entry p = .ok e ∧
    relationColumns inspector e = .ok (m.columnsOf inspector p)
  deferred : l.deferred = putOff.eraseDups

theorem tracks_start : Tracks inspector m [] [] ⟨[], [], []⟩ where
  columns := rfl
  loaded := List.Subset.refl _
  known := fun _ hp => absurd hp List.not_mem_nil
  deferred := rfl

section tracks

variable {met putOff : List String} {l : Loading} {p : String}

/-- A prefix is met for the first time. -/
theorem Tracks.add {e : RelationEntry} {columns : List Expression}
    (h : Tracks inspector m met putOff l) (he : m.entry p = .ok e)
    (hcolumns : relationColumns inspector e = .ok columns) :
    Tracks inspector m (met ++ [p]) putOff (l.add p columns) := by
  have hown : m.columnsOf inspector p = columns := by
    unfold RelationMap.columnsOf
    rw [he]
    show (match relationColumns inspector e with | .ok columns => columns | .error _ => []) = _
    rw [hcolumns]
  -- columns, what is loaded and what is known each grow by this path
  refine ⟨?_, ?_, ?_, h.deferred⟩
  · show (l.columns ++ columns).eraseDups = _
    rw [List.flatMap_append, List.flatMap_singleton, hown]
    exact eraseDups_append_congr h.columns rfl
  · intro q hq
    rcases List.mem_append.1 hq with hq | hq
    · exact List.mem_append_left _ (h.loaded hq)
    · exact List.mem_append_right _ hq
  · intro q hq
    rcases List.mem_append.1 hq with hq | hq
    · exact h.known q hq
    · obtain rfl := List.mem_singleton.1 hq
      exact ⟨e, he, hown.symm ▸ hcolumns⟩

/-- A prefix is met again that has been loaded. -/
theorem Tracks.again (h : Tracks inspector m met putOff l) (hp : p ∈ l.loaded) :
    Tracks inspector m (met ++ [p]) putOff l := by
  have hmet : p ∈ met := h.loaded hp
  -- what has been loaded has been met, so its columns are there already
  have hthere : [p].flatMap (m.columnsOf inspector) ⊆ met.flatMap (m.columnsOf inspector) := by
    intro x hx
    rw [List.flatMap_singleton] at hx
    exact List.mem_flatMap.2 ⟨p, hmet, hx⟩
  refine ⟨?_, ?_, ?_, h.deferred⟩
  · rw [List.flatMap_append, eraseDups_append_of_subset hthere]
    exact h.columns
  · intro q hq
    exact List.mem_append_left _ (h.loaded hq)
  · intro q hq
    rcases List.mem_append.1 hq with hq | hq
    · exact h.known q hq
    · exact h.known q (List.mem_singleton.1 hq ▸ hmet)

/-- A prefix is put off. -/
theorem Tracks.defer (h : Tracks inspector m met putOff l) (p : String) :
    Tracks inspector m met (putOff ++ [p]) (l.defer p) := by
  -- a path is put off only if it has not been put off before
  have hdeferred : (l.defer p).deferred = addFresh id l.deferred p := by
    rw [addFresh_id]
    unfold Loading.defer
    split <;> rfl
  have hcolumns : (l.defer p).columns = l.columns := by
    unfold Loading.defer
    split <;> rfl
  have hloaded : (l.defer p).loaded = l.loaded := by
    unfold Loading.defer
    split <;> rfl
  refine ⟨?_, ?_, h.known, ?_⟩
  · rw [hcolumns]
    exact h.columns
  · rw [hloaded]
    exact h.loaded
  · rw [hdeferred, h.deferred, ← foldl_addFresh_nil, ← foldl_addFresh_nil, List.foldl_append]
    rfl

/-- Loading along prefixes meets those before the first one that leads to many rows, and puts
    this one off. -/
theorem Tracks.along {l' : Loading} {ps : List String} (h : Tracks inspector m met putOff l)
    (hl : Loading.along inspector m l ps = .ok l') :
    Tracks inspector m (met ++ ps.takeWhile fun p => !m.leadsToMany p)
      (putOff ++ (ps.find? m.leadsToMany).toList) l' := by
  induction ps generalizing met l with
  | nil =>
    obtain rfl := Except.ok.inj hl
    simpa using h
  | cons p ps ih =>
    obtain ⟨e, he, hl⟩ := Outcome.bind_eq_ok_iff.1 hl
    have hmany := RelationMap.leadsToMany_of_entry he
    by_cases htoMany : e.isToMany = true
    · -- what is left of the path is not looked at
      rw [if_pos htoMany] at hl
      obtain rfl := Outcome.pure_eq_ok_iff.1 hl
      have hfound : m.leadsToMany p = true := hmany.trans htoMany
      rw [List.takeWhile_cons_of_neg (by simpa using hfound), List.find?_cons_of_pos hfound,
        List.append_nil]
      exact h.defer p
    · rw [if_neg htoMany] at hl
      have hother : m.leadsToMany p = false := hmany.trans (by simpa using htoMany)
      rw [List.takeWhile_cons_of_pos (by simpa using hother),
        List.find?_cons_of_neg (by simpa using hother), List.append_cons]
      by_cases hloaded : p ∈ l.loaded
      · -- it is a prefix of an earlier path too
        rw [if_pos hloaded] at hl
        exact ih (h.again hloaded) hl
      · rw [if_neg hloaded] at hl
        obtain ⟨columns, hcolumns, hl⟩ := Outcome.bind_eq_ok_iff.1 hl
        exact ih (h.add he hcolumns) hl

/-- So does loading along all paths, one after the other. -/
theorem Tracks.foldlM {l' : Loading} {paths : List String} (h : Tracks inspector m met putOff l)
    (hl : paths.foldlM (fun l path => Loading.along inspector m l (RelationPath.prefixes path)) l =
      .ok l') :
    Tracks inspector m (met ++ paths.flatMap m.toOnePrefixes)
      (putOff ++ paths.filterMap m.shortestToMany?) l' := by
  induction paths generalizing met putOff l with
  | nil =>
    obtain rfl := Outcome.pure_eq_ok_iff.1 hl
    simpa using h
  | cons path paths ih =>
    obtain ⟨next, hnext, hl⟩ := Outcome.bind_eq_ok_iff.1 hl
    have hfirst := h.along hnext
    -- what comes before the first hit is what is shorter than the shortest one
    rw [← RelationMap.toOnePrefixes_eq_takeWhile, ← RelationMap.shortestToMany?_eq_find?] at hfirst
    have hall := ih hfirst hl
    have hputOff : (path :: paths).filterMap m.shortestToMany? =
        (m.shortestToMany? path).toList ++ paths.filterMap m.shortestToMany? := by
      rw [List.filterMap_cons]
      cases m.shortestToMany? path <;> rfl
    rw [List.flatMap_cons, hputOff, ← List.append_assoc, ← List.append_assoc]
    exact hall

end tracks

theorem tracks_ofPaths {l : Loading} {paths : List String}
    (h : ofPaths inspector m paths = .ok l) :
    Tracks inspector m (paths.flatMap m.toOnePrefixes) (paths.filterMap m.shortestToMany?) l :=
  tracks_start.foldlM h

end Loading

/-! ## Columns of a compiled query -/

/-- The columns of a root table: those of the primary key and then the other ones, or all columns
    if none is declared. -/
def rootSelection (table : String) (primaryKey keys : List String) : List Expression :=
  if primaryKey = [] ∧ keys = [] then [.key (qualified table "*") none]
  else (primaryKey ++ keys.filter (· ∉ primaryKey)).map fun k => .key (qualified table k) none

/-- A column of a related entity under the alias of the path that leads to it. -/
def relatedColumn (path key : String) : Expression :=
  .key (qualified (RelationPath.aliasOf path) key)
    (some (RelationPath.columnAlias (RelationPath.aliasOf path) key))

theorem exists_keys_of_rootColumns {inspector : Inspector} {entity root : String}
    {columns : List Expression} (h : rootColumns inspector entity root = .ok columns) :
    ∃ primaryKey keys, inspector.primaryKey entity = .ok primaryKey ∧
      inspector.keys entity = .ok keys ∧ columns = rootSelection root primaryKey keys := by
  obtain ⟨primaryKey, hprimaryKey, h⟩ := Outcome.bind_eq_ok_iff.1 h
  obtain ⟨keys, hkeys, h⟩ := Outcome.bind_eq_ok_iff.1 h
  refine ⟨primaryKey, keys, hprimaryKey, hkeys, ?_⟩
  have hothers : (keys.filter fun k => !primaryKey.contains k) =
      keys.filter (· ∉ primaryKey) := by
    apply List.filter_congr
    intro k _
    simp
  -- the other keys are empty with the primary key only if there are no keys at all
  have hnone : (primaryKey ++ keys.filter (· ∉ primaryKey)).isEmpty = true ↔
      primaryKey = [] ∧ keys = [] := by
    rw [List.isEmpty_iff, List.append_eq_nil_iff]
    apply and_congr_right
    intro hnil
    rw [hnil]
    simp
  dsimp only at h
  rw [hothers] at h
  unfold rootSelection
  by_cases hempty : primaryKey = [] ∧ keys = []
  · rw [if_pos (hnone.2 hempty)] at h
    rw [if_pos hempty]
    exact (Outcome.pure_eq_ok_iff.1 h).symm
  · rw [if_neg (mt hnone.1 hempty)] at h
    rw [if_neg hempty]
    exact (Outcome.pure_eq_ok_iff.1 h).symm

/-- The columns of a compiled query are those of the root table and then, for each eager path in
    order, those of its prefixes that are shorter than the shortest one that leads to many rows,
    each where it is mentioned first. The deferred paths are these shortest ones, each where it is
    mentioned first. No column is selected for a path with a prefix that leads to many rows. -/
theorem compile_loads_toOne (inspector : Inspector) (q : EntityQuery) {c : Compilation}
    (h : compile inspector q none = .ok c) :
    ∃ primaryKey keys, inspector.storageName q.entity = .ok c.query.table ∧
      inspector.primaryKey q.entity = .ok primaryKey ∧ inspector.keys q.entity = .ok keys ∧
      c.query.columns = (rootSelection c.query.table primaryKey keys ++
        q.eager.flatMap fun path => (c.relationMap.toOnePrefixes path).flatMap
          (c.relationMap.columnsOf inspector)).eraseDups ∧
      c.deferred = (q.eager.filterMap c.relationMap.shortestToMany?).eraseDups ∧
      ∀ path ∈ q.eager, ∀ p ∈ c.relationMap.toOnePrefixes path,
        (∃ e ∈ c.relationMap.entries, e.path = p ∧ ∃ related,
          inspector.keys e.relationship.related = .ok related ∧
          c.relationMap.columnsOf inspector p = related.map (relatedColumn p)) ∧
        ∀ r ∈ RelationPath.prefixes p,
          ∃ f ∈ c.relationMap.entries, f.path = r ∧ f.isToMany = false := by
  obtain ⟨columns, paths, loading, own, p, hmade, rfl⟩ := exists_made_of_compile h
  obtain ⟨primaryKey, keys, hprimaryKey, hkeys, rfl⟩ :=
    exists_keys_of_rootColumns hmade.rootColumns
  have htracks := Loading.tracks_ofPaths hmade.ofPaths
  have hknown (path : String) (hpath : path ∈ q.eager) (r : String)
      (hr : r ∈ p.relationMap.toOnePrefixes path) :=
    htracks.known r (List.mem_flatMap.2 ⟨path, hpath, hr⟩)
  -- the columns and the deferred paths are those that the walk has tracked
  refine ⟨primaryKey, keys, ?_, hprimaryKey, hkeys, ?_, ?_, ?_⟩
  · rw [p.table_selection]
    exact hmade.storageName
  · have hselected : p.selection.columns = p.columns.foldl (addFresh id) [] :=
      congrArg Query.columns (hmade.extend_eq (Query.select p.table))
    show p.selection.columns = _
    rw [hselected, foldl_addFresh_nil, hmade.columns_eq, p.table_selection, ← List.flatMap_assoc]
    exact eraseDups_append_congr rfl htracks.columns
  · exact hmade.deferred_eq.trans htracks.deferred
  · intro path hpath r hr
    constructor
    · obtain ⟨e, he, hcolumns⟩ := hknown path hpath r hr
      obtain ⟨hmem, hepath⟩ := RelationMap.entry_eq_ok he
      obtain ⟨related, hrelated, hown⟩ := Outcome.bind_eq_ok_iff.1 hcolumns
      refine ⟨e, hmem, hepath, related, hrelated, ?_⟩
      rw [← Outcome.pure_eq_ok_iff.1 hown, hmade.aliasName e hmem, hepath]
      rfl
    · intro s hs
      -- a prefix of a path that is loaded is loaded itself
      have hsone := RelationMap.mem_toOnePrefixes_trans hs hr
      obtain ⟨f, hf, -⟩ := hknown path hpath s hsone
      obtain ⟨hmem, hfpath⟩ := RelationMap.entry_eq_ok hf
      refine ⟨f, hmem, hfpath, ?_⟩
      rw [← RelationMap.leadsToMany_of_entry hf]
      exact RelationMap.leadsToMany_of_mem_toOnePrefixes hsone

/-- Five paths that overlap. The relations `posts` and `home.tenants` lead to many rows: each is
    deferred once, and nothing is selected for what is beyond them, although a condition is on it.
    The columns of `home` are selected once for three paths. -/
theorem compile_loads_toOne_overlapping :
    let user : ClassMap := { ClassMap.ofTable "users" with
      keys := ["id", "name"]
      relationships := .ofList
        [("home", .ofOne "Address" "home_id" "id"), ("posts", .ofMany "Post" "id" "user_id")] }
    let address : ClassMap := { ClassMap.ofTable "addresses" with
      keys := ["id", "city"]
      relationships := .ofList [("country", .ofOne "Country" "country_code" "code"),
        ("tenants", .ofMany "User" "id" "home_id")] }
    let country : ClassMap := { ClassMap.ofTable "countries" with keys := ["code"] }
    let post : ClassMap := { ClassMap.ofTable "posts" with
      keys := ["id", "title"]
      relationships := .ofList [("author", .ofOne "User" "user_id" "id")] }
    let schema : Schema := .ofList
      [("User", user), ("Address", address), ("Country", country), ("Post", post)]
    let q : EntityQuery := { (EntityQuery.of "User").filterValue "posts.author.name" "="
        (.string "Ada") with
      eager := ["posts.author", "home.country", "home.tenants.home", "posts", "home"] }
    ∃ c, compile schema.inspector q none = .ok c ∧ c.deferred = ["posts", "home.tenants"] ∧
      c.query.columns = [.key "users.id" none, .key "users.name" none,
        .key "home.id" (some "home__id"), .key "home.city" (some "home__city"),
        .key "home__country.code" (some "home__country__code")] := by
  intro user address country post schema q
  have hview : (compile schema.inspector q none).map (fun c =>
      (c.query.table, q.eager.filterMap c.relationMap.shortestToMany?,
        q.eager.flatMap c.relationMap.toOnePrefixes,
        ["home", "home.country"].map (c.relationMap.columnsOf schema.inspector))) =
      .ok ("users", ["posts", "home.tenants", "posts"],
        ["home", "home.country", "home", "home"],
        [["id", "city"].map (relatedColumn "home"),
          ["code"].map (relatedColumn "home.country")]) := by
    decide +kernel
  obtain ⟨c, hc, hparts⟩ := Outcome.map_eq_ok_iff.1 hview
  simp only [Prod.mk.injEq, List.map_cons, List.map_nil, List.cons.injEq, and_true] at hparts
  obtain ⟨htable, hmany, hone, hhome, hcountry⟩ := hparts
  obtain ⟨primaryKey, keys, -, hprimaryKey, hkeys, hcolumns, hdeferred, -⟩ :=
    compile_loads_toOne schema.inspector q hc
  -- the keys of the statement are those of the schema
  obtain rfl : primaryKey = ["id"] := by
    have hid : schema.inspector.primaryKey "User" = .ok ["id"] := by decide +kernel
    exact Except.ok.inj (hprimaryKey.symm.trans hid)
  obtain rfl : keys = ["id", "name"] := by
    have hall : schema.inspector.keys "User" = .ok ["id", "name"] := by decide +kernel
    exact Except.ok.inj (hkeys.symm.trans hall)
  refine ⟨c, hc, ?_, ?_⟩
  · rw [hdeferred, hmany]
    decide +kernel
  · rw [hcolumns, htable, ← List.flatMap_assoc, hone]
    simp only [List.flatMap_cons, List.flatMap_nil, hhome, hcountry]
    decide +kernel

end EntitySql
