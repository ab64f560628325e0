import EntitySql.Proofs.Relation.Prefix
import EntitySql.Proofs.Relation.Resolution
import Mathlib.Data.List.Destutter

/-! # Resolution depends on the set of prefixes

    Two lists of paths *have the same prefixes* if the dotted prefixes of their
    paths are the same texts, the empty one apart. So they do if one list is the
    other in another order, or with a prefix of one of its paths added, such as
    the path itself once more.

    The closure of paths is the one sorted list of their prefixes, so lists with
    the same prefixes are resolved in the same steps, to the same map or the same
    error. It does not matter how the closure is found: sorting the prefixes
    puts repetitions next to each other, so it is enough to drop those that
    repeat the path before them.
-/

namespace EntitySql

namespace RelationPath

/-! ## Lists with the same prefixes -/

/-- The dotted prefixes of the paths are the same, not counting the empty path. -/
def SamePrefixes (ps qs : List String) : Prop :=
  ∀ q, q ≠ "" → ((∃ p ∈ ps, DottedPrefix q p) ↔ ∃ p ∈ qs, DottedPrefix q p)

/-- Paths have the same prefixes if and only if their closures are the same. -/
theorem samePrefixes_iff {ps qs : List String} : SamePrefixes ps qs ↔ closure ps = closure qs := by
  constructor
  · intro h
    -- both closures are strictly sorted, so their members decide them
    refine (sorted_closure ps).eq_of_mem_iff (sorted_closure qs) ?_
    intro q
    rw [mem_closure_iff, mem_closure_iff]
    exact and_congr_right (h q)
  · intro h q hq
    have hps : q ∈ closure ps ↔ ∃ p ∈ ps, DottedPrefix q p :=
      mem_closure_iff.trans (and_iff_right hq)
    have hqs : q ∈ closure qs ↔ ∃ p ∈ qs, DottedPrefix q p :=
      mem_closure_iff.trans (and_iff_right hq)
    rw [← hps, ← hqs, h]

instance (ps qs : List String) : Decidable (SamePrefixes ps qs) :=
  decidable_of_iff _ samePrefixes_iff.symm

theorem SamePrefixes.trans {ps qs rs : List String} (h : SamePrefixes ps qs)
    (h' : SamePrefixes qs rs) : SamePrefixes ps rs := fun q hq => (h q hq).trans (h' q hq)

/-- Reordering paths leaves their prefixes. -/
theorem samePrefixes_of_perm {ps qs : List String} (h : ps.Perm qs) : SamePrefixes ps qs :=
  fun _ _ => exists_congr fun _ => and_congr_left fun _ => h.mem_iff

/-- A path adds nothing if it is a prefix of one that is there, or that path itself. -/
theorem samePrefixes_cons {p q : String} {ps : List String} (hp : p ∈ ps)
    (hq : DottedPrefix q p) : SamePrefixes (q :: ps) ps := by
  intro r _
  constructor
  · rintro ⟨s, hs, hrs⟩
    rcases List.mem_cons.1 hs with rfl | hs
    · exact ⟨p, hp, hrs.trans hq⟩
    · exact ⟨s, hs, hrs⟩
  · rintro ⟨s, hs, hrs⟩
    exact ⟨s, List.mem_cons_of_mem _ hs, hrs⟩

/-! ## Sorting and dropping repetitions -/

/-- If paths are in order, but possibly repeated, dropping those that repeat the one before them
    leaves each path once. -/
theorem sorted_destutter {ps : List String} (h : ps.Pairwise fun p q => ¬ precedes q p = true) :
    Sorted (ps.destutter (· ≠ ·)) ∧ ∀ p, p ∈ ps.destutter (· ≠ ·) ↔ p ∈ ps := by
  have : Std.Antisymm fun p q => ¬ precedes q p = true := by
    refine ⟨fun p q hpq hqp => by_contra fun hne => ?_⟩
    exact hpq (precedes_of_not hne hqp)
  -- in a sorted list a repetition always stands next to what it repeats
  rw [h.destutter_eq_dedup]
  refine ⟨?_, fun p => List.mem_dedup⟩
  have hweak := h.sublist (List.dedup_sublist ps)
  refine (hweak.and (List.nodup_dedup ps)).imp ?_
  rintro p q ⟨hqp, hne⟩
  exact precedes_of_not (Ne.symm hne) hqp

/-- So the closure is found by sorting all prefixes and dropping such repetitions. -/
theorem destutter_eq_closure {ps sorted : List String} (hperm : sorted.Perm (ps.flatMap prefixes))
    (hsorted : sorted.Pairwise fun p q => ¬ precedes q p = true) :
    sorted.destutter (· ≠ ·) = closure ps := by
  obtain ⟨hstrict, hmem⟩ := sorted_destutter hsorted
  refine hstrict.eq_of_mem_iff (sorted_closure ps) ?_
  intro p
  rw [hmem, hperm.mem_iff, mem_closure, List.mem_flatMap]

end RelationPath

namespace RelationMap

/-! ## Resolving the same prefixes -/

/-- Paths with the same prefixes are resolved to the same map, or both fail on the same error. So
    does each list of the prefixes that is sorted by their number of segments and then by their
    text, and in which a path that repeats the one before it is left out. -/
theorem resolve_eq_of_samePrefixes (inspector : Inspector) (root : String) {ps qs : List String}
    (h : RelationPath.SamePrefixes ps qs) :
    resolve inspector root ps = resolve inspector root qs ∧
      ∀ sorted : List String, sorted.Perm (ps.flatMap RelationPath.prefixes) →
        (sorted.Pairwise fun p q => ¬ RelationPath.precedes q p = true) →
        (sorted.destutter (· ≠ ·)).foldlM (extend inspector root) empty =
          resolve inspector root qs := by
  have hclosure := RelationPath.samePrefixes_iff.1 h
  constructor
  · unfold resolve
    rw [hclosure]
  · intro sorted hperm hsorted
    unfold resolve
    rw [RelationPath.destutter_eq_closure hperm hsorted, hclosure]

/-- Paths to tags and countries, the other way round with repetitions and prefixes. They are
    resolved to the same four entries. With an author, which a post does not have, and a city, which
    an address does not have, resolution fails on the city in both orders. -/
theorem resolve_eq_of_samePrefixes_reversed :
    let user : ClassMap := { ClassMap.ofTable "users" with
      relationships := .ofList [("address", .ofOne "Address" "address_id" "id"),
        ("posts", .ofMany "Post" "id" "author_id")] }
    let address : ClassMap := { ClassMap.ofTable "addresses" with
      relationships := .ofList [("country", .ofOne "Country" "country_id" "id")] }
    let post : ClassMap := { ClassMap.ofTable "posts" with
      relationships := .ofList
        [("tags", .through "Tag" "id" "id" ⟨.table "post_tags", "post_id", "tag_id"⟩)] }
    let schema : Schema := .ofList [("User", user), ("Address", address), ("Post", post)]
    let ps := ["posts.tags", "address.country"]
    let qs := ["", "address", "address.country", "posts", "posts.tags", "posts"]
    let rs := ["posts.author", "address.city"]
    RelationPath.SamePrefixes ps qs ∧
      (∃ m, resolve schema.inspector "User" ps = .ok m ∧
        resolve schema.inspector "User" qs = .ok m ∧
        m.entries.map RelationEntry.path = ["address", "posts", "address.country", "posts.tags"]) ∧
      (["address", "address", "posts", "posts"].destutter (· ≠ ·)).foldlM
        (extend schema.inspector "User") empty =
          resolve schema.inspector "User" ["posts", "address"] ∧
      resolve schema.inspector "User" rs =
        .error (.relationNotFound "Address" "city" "address.city") ∧
      resolve schema.inspector "User" ("posts" :: rs.reverse) =
        .error (.relationNotFound "Address" "city" "address.city") := by
  intro user address post schema ps qs rs
  have hsame : RelationPath.SamePrefixes ps qs := by decide +kernel
  have hrepeated : RelationPath.SamePrefixes ["posts", "address", "posts", "address"]
      ["posts", "address"] := by
    decide +kernel
  -- the added path is a prefix of one already there, and reversal is a permutation
  have hreversed : RelationPath.SamePrefixes ("posts" :: rs.reverse) rs := by
    have hposts : RelationPath.SamePrefixes ("posts" :: rs.reverse) rs.reverse :=
      RelationPath.samePrefixes_cons (p := "posts.author") (by decide) (Or.inr ⟨"author", rfl⟩)
    exact hposts.trans (RelationPath.samePrefixes_of_perm (List.reverse_perm rs))
  have hview : (resolve schema.inspector "User" ps).map (fun m =>
      m.entries.map RelationEntry.path) =
        .ok ["address", "posts", "address.country", "posts.tags"] := by
    decide +kernel
  have herror : resolve schema.inspector "User" rs =
      .error (.relationNotFound "Address" "city" "address.city") := by
    decide +kernel
  obtain ⟨m, hm, hpaths⟩ := Outcome.map_eq_ok_iff.1 hview
  obtain ⟨hqs, -⟩ := resolve_eq_of_samePrefixes schema.inspector "User" hsame
  obtain ⟨-, hsorted⟩ := resolve_eq_of_samePrefixes schema.inspector "User" hrepeated
  obtain ⟨hrs, -⟩ := resolve_eq_of_samePrefixes schema.inspector "User" hreversed
  exact ⟨hsame, ⟨m, hm, hqs.symm.trans hm, hpaths⟩,
    hsorted _ (by decide +kernel) (by decide +kernel), herror, hrs.trans herror⟩

end RelationMap

end EntitySql
