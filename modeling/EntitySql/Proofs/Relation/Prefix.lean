import EntitySql.Proofs.Relation.Order

/-! # Prefixes of relation paths

    A path is a *dotted prefix* of another one if that one ends with it or goes
    on with a dot. The closure of paths holds their dotted prefixes that are not
    empty. So it holds the parent of each of its paths too, unless this parent
    is empty, which it is only for a path that begins with a dot.

    The segments of a path are those of its parent and one more.
-/

namespace EntitySql.RelationPath

/-! ## The last dot -/

theorem splitLast?_eq_none_iff {cs : List Char} : splitLast? cs = none ↔ '.' ∉ cs := by
  induction cs with
  | nil => simp [splitLast?]
  | cons c cs ih =>
    rw [List.mem_cons, not_or, ← ih, splitLast?]
    cases hcs : splitLast? cs with
    | some parts => simp
    | none =>
      by_cases hc : c = '.'
      · simp [hc]
      · simp [hc, eq_comm]

/-- The last dot stands before a text without dots. -/
theorem splitLast?_eq_some {cs front back : List Char} (h : splitLast? cs = some (front, back)) :
    cs = front ++ '.' :: back ∧ '.' ∉ back := by
  induction cs generalizing front with
  | nil => exact absurd h nofun
  | cons c cs ih =>
    rw [splitLast?] at h
    cases hcs : splitLast? cs with
    | some parts =>
      obtain ⟨front', back'⟩ := parts
      rw [hcs] at h
      obtain ⟨rfl, rfl⟩ := Prod.mk.inj (Option.some.inj h)
      obtain ⟨hsplit, hdots⟩ := ih hcs
      exact ⟨congrArg (c :: ·) hsplit, hdots⟩
    | none =>
      -- no dot follows, so the last one is here if there is any
      rw [hcs] at h
      by_cases hc : c = '.'
      · obtain ⟨rfl, rfl⟩ := Prod.mk.inj (Option.some.inj ((if_pos hc).symm.trans h))
        exact ⟨by rw [hc]; rfl, splitLast?_eq_none_iff.1 hcs⟩
      · exact absurd ((if_neg hc).symm.trans h) nofun

/-- A path has a parent unless it has no dot. -/
theorem parent?_eq_none_iff_dot_not_mem {path : String} :
    parent? path = none ↔ '.' ∉ path.toList :=
  Option.map_eq_none_iff.trans splitLast?_eq_none_iff

/-- A path without a parent is a single segment. -/
theorem segments_of_parent?_eq_none {path : String} (h : parent? path = none) :
    segments path = [path] ∧ lastSegment path = path := by
  have hsplit : splitLast? path.toList = none := Option.map_eq_none_iff.1 h
  have hdots := parent?_eq_none_iff_dot_not_mem.1 h
  constructor
  · rw [segments, List.splitOn_eq_singleton hdots, List.map_singleton, String.ofList_toList]
  · rw [lastSegment, hsplit]

/-- A path is its parent, a dot and its last segment. -/
theorem eq_of_parent?_eq_some {path parent : String} (h : parent? path = some parent) :
    path = parent ++ "." ++ lastSegment path ∧ '.' ∉ (lastSegment path).toList := by
  obtain ⟨⟨front, back⟩, hsplit, rfl⟩ := Option.map_eq_some_iff.1 h
  obtain ⟨hpath, hdots⟩ := splitLast?_eq_some hsplit
  have hlast : lastSegment path = String.ofList back := by rw [lastSegment, hsplit]
  rw [hlast]
  constructor
  · apply String.toList_injective
    simpa using hpath
  · simpa using hdots

theorem toList_of_parent?_eq_some {path parent : String} (h : parent? path = some parent) :
    path.toList = parent.toList ++ '.' :: (lastSegment path).toList := by
  conv_lhs => rw [(eq_of_parent?_eq_some h).1]
  simp

/-! ## Segments -/

theorem map_toList_segments (path : String) :
    (segments path).map String.toList = path.toList.splitOn '.' := by
  rw [segments, List.map_map]
  exact List.map_id'' (fun _ => String.toList_ofList) _

/-- A path is its segments with dots between them. -/
theorem intercalate_segments (path : String) : ".".intercalate (segments path) = path := by
  apply String.toList_injective
  rw [String.toList_intercalate, map_toList_segments]
  exact List.intercalate_splitOn '.'

/-- So segments determine their path. -/
theorem segments_injective : Function.Injective segments :=
  Function.LeftInverse.injective intercalate_segments

theorem segments_append_dot (p q : String) :
    segments (p ++ "." ++ q) = segments p ++ segments q := by
  have hdot : (p ++ "." ++ q).toList = p.toList ++ '.' :: q.toList := by simp
  unfold segments List.splitOn
  rw [hdot, List.splitOnP_append_cons _ _ (by decide), List.map_append]

/-- The segments of a path are those of its parent and the last one. -/
theorem segments_of_parent?_eq_some {path parent : String} (h : parent? path = some parent) :
    segments path = segments parent ++ [lastSegment path] := by
  obtain ⟨hpath, hdots⟩ := eq_of_parent?_eq_some h
  have hlast : segments (lastSegment path) = [lastSegment path] := by
    rw [segments, List.splitOn_eq_singleton hdots, List.map_singleton, String.ofList_toList]
  conv_lhs => rw [hpath]
  rw [segments_append_dot, hlast]

theorem getLast?_segments (path : String) :
    (segments path).getLast? = some (lastSegment path) := by
  cases hparent : parent? path with
  | none =>
    obtain ⟨hsegments, hlast⟩ := segments_of_parent?_eq_none hparent
    rw [hsegments, hlast]
    rfl
  | some parent => rw [segments_of_parent?_eq_some hparent, List.getLast?_concat]

theorem segments_eq_concat (path : String) :
    segments path = (segments path).dropLast ++ [lastSegment path] :=
  (List.dropLast_append_getLast? _ (getLast?_segments path)).symm

theorem segments_ne_nil (path : String) : segments path ≠ [] := by
  intro h
  exact List.splitOnP_ne_nil _ _ (List.map_eq_nil_iff.1 h)

theorem depth_pos (path : String) : 0 < depth path :=
  List.length_pos_of_ne_nil (segments_ne_nil path)

theorem depth_of_parent? {path parent : String} (h : parent? path = some parent) :
    depth path = depth parent + 1 := by
  rw [depth, segments_of_parent?_eq_some h, List.length_append, List.length_singleton]
  rfl

/-- A path has a parent unless it is a single segment. -/
theorem parent?_eq_none_iff {path : String} : parent? path = none ↔ depth path = 1 := by
  constructor
  · intro h
    rw [depth, (segments_of_parent?_eq_none h).1, List.length_singleton]
  · intro h
    cases hparent : parent? path with
    | none => rfl
    | some parent =>
      have hdepth := depth_of_parent? hparent
      have hpos := depth_pos parent
      omega

/-- A path comes after its parent. -/
theorem precedes_of_parent? {path parent : String} (h : parent? path = some parent) :
    precedes parent path = true := by
  rw [precedes_iff, depth_of_parent? h]
  exact Or.inl (Nat.lt_succ_self _)

/-! ## Dotted prefixes -/

/-- The second path ends with the first one or goes on with a dot. -/
def DottedPrefix (q p : String) : Prop := p = q ∨ ∃ rest : String, p = q ++ "." ++ rest

theorem DottedPrefix.refl (p : String) : DottedPrefix p p := Or.inl rfl

theorem DottedPrefix.trans {p q r : String} (hpq : DottedPrefix p q) (hqr : DottedPrefix q r) :
    DottedPrefix p r := by
  rcases hqr with rfl | ⟨rest, rfl⟩
  · exact hpq
  · rcases hpq with rfl | ⟨middle, rfl⟩
    · exact Or.inr ⟨rest, rfl⟩
    · refine Or.inr ⟨middle ++ "." ++ rest, ?_⟩
      simp only [String.append_assoc]

theorem dottedPrefix_of_parent? {path parent : String} (h : parent? path = some parent) :
    DottedPrefix parent path := Or.inr ⟨_, (eq_of_parent?_eq_some h).1⟩

/-- The segments of a dotted prefix are the first ones of the path. -/
theorem DottedPrefix.segments_prefix {q p : String} (h : DottedPrefix q p) :
    segments q <+: segments p := by
  rcases h with rfl | ⟨rest, rfl⟩
  · exact List.prefix_rfl
  · rw [segments_append_dot]
    exact List.prefix_append _ _

theorem mem_cuts_iff {q cs : List Char} :
    q ∈ cuts cs ↔ cs = q ∨ ∃ rest, cs = q ++ '.' :: rest := by
  induction cs generalizing q with
  | nil => simp [cuts, eq_comm]
  | cons c cs ih =>
    rw [cuts, List.mem_append, List.mem_map]
    cases q with
    | nil => by_cases hc : c = '.' <;> simp [hc]
    | cons d q =>
      -- a cut that is not empty keeps the first character, so it is not the cut made here but comes
      -- from a cut of the rest
      have hfirst : d :: q ∉ (if c = '.' then [[]] else []) := by split <;> simp
      constructor
      · intro h
        obtain ⟨q', hq', hcons⟩ := h.resolve_left hfirst
        obtain ⟨rfl, rfl⟩ := List.cons.inj hcons
        simpa using ih.1 hq'
      · intro h
        right
        have hhead : c = d := by
          rcases h with h | ⟨rest, h⟩
          · exact (List.cons.inj h).1
          · exact (List.cons.inj h).1
        subst hhead
        exact ⟨q, ih.2 (by simpa using h), rfl⟩

theorem mem_prefixes_iff {q p : String} : q ∈ prefixes p ↔ q ≠ "" ∧ DottedPrefix q p := by
  -- first on characters, where the recursion is; the empty cut is then filtered out
  have hcut : q.toList ∈ cuts p.toList ↔ DottedPrefix q p := by
    rw [mem_cuts_iff]
    refine or_congr String.toList_inj ?_
    constructor
    · rintro ⟨rest, hrest⟩
      refine ⟨String.ofList rest, String.toList_injective ?_⟩
      simpa using hrest
    · rintro ⟨rest, rfl⟩
      exact ⟨rest.toList, by simp⟩
  rw [prefixes, List.mem_map, ← hcut]
  constructor
  · rintro ⟨cs, hcs, rfl⟩
    obtain ⟨hmem, hne⟩ := List.mem_filter.1 hcs
    rw [String.toList_ofList]
    refine ⟨fun h => ?_, hmem⟩
    have hnil : cs = [] := by simpa using congrArg String.toList h
    rw [hnil] at hne
    exact Bool.noConfusion hne
  · rintro ⟨hne, hmem⟩
    refine ⟨q.toList, List.mem_filter.2 ⟨hmem, ?_⟩, String.ofList_toList⟩
    simpa using hne

theorem pairwise_length_cuts (cs : List Char) :
    (cuts cs).Pairwise fun q r => q.length < r.length := by
  induction cs with
  | nil => exact List.pairwise_singleton _ _
  | cons c cs ih =>
    have hrest : ((cuts cs).map (c :: ·)).Pairwise fun q r => q.length < r.length :=
      List.pairwise_map.2 (ih.imp Nat.succ_lt_succ)
    have hfirst : (if c = '.' then [[]] else []).Pairwise
        fun q r : List Char => q.length < r.length := by
      split
      · exact List.pairwise_singleton _ _
      · exact List.Pairwise.nil
    refine List.pairwise_append.2 ⟨hfirst, hrest, ?_⟩
    intro q hq r hr
    -- nothing is before a dot at the start, and something is before any other dot
    have hnil : q = [] := by
      split at hq
      · exact List.mem_singleton.1 hq
      · exact absurd hq List.not_mem_nil
    obtain ⟨r', -, rfl⟩ := List.mem_map.1 hr
    rw [hnil]
    exact Nat.succ_pos _

/-- Prefixes are listed in increasing length. -/
theorem pairwise_length_prefixes (p : String) :
    (prefixes p).Pairwise fun q r => q.length < r.length := by
  refine List.pairwise_map.2 (((pairwise_length_cuts p.toList).filter _).imp ?_)
  intro q r hqr
  rw [String.length_ofList, String.length_ofList]
  exact hqr

/-- A prefix of a prefix is one that is not longer. -/
theorem mem_prefixes_trans {r q p : String} (hr : r ∈ prefixes q) (hq : q ∈ prefixes p) :
    r ∈ prefixes p ∧ r.length ≤ q.length := by
  obtain ⟨hne, hrq⟩ := mem_prefixes_iff.1 hr
  obtain ⟨-, hqp⟩ := mem_prefixes_iff.1 hq
  refine ⟨mem_prefixes_iff.2 ⟨hne, hrq.trans hqp⟩, ?_⟩
  rcases hrq with rfl | ⟨rest, rfl⟩
  · exact Nat.le_refl _
  · rw [String.length_append, String.length_append]
    omega

/-! ## Leading dots -/

/-- The first segment of the path is empty, and is not the only one. -/
def LeadingDot (path : String) : Prop := path.toList.head? = some '.'

instance (path : String) : Decidable (LeadingDot path) := inferInstanceAs (Decidable (_ = _))

/-- A path begins with a dot if its parent does or is empty. -/
theorem leadingDot_iff_of_parent? {path parent : String} (h : parent? path = some parent) :
    LeadingDot path ↔ parent = "" ∨ LeadingDot parent := by
  unfold LeadingDot
  rw [toList_of_parent?_eq_some h, ← String.toList_inj, String.toList_empty]
  cases parent.toList with
  | nil => simp
  | cons c cs => simp

/-- A path that begins with a dot has a parent. -/
theorem LeadingDot.exists_parent? {path : String} (h : LeadingDot path) :
    ∃ parent, parent? path = some parent := by
  rw [← Option.isSome_iff_exists, Option.isSome_iff_ne_none]
  intro hparent
  exact parent?_eq_none_iff_dot_not_mem.1 hparent (List.mem_of_mem_head? h)

theorem DottedPrefix.leadingDot {q p : String} (h : DottedPrefix q p) (hq : LeadingDot q) :
    LeadingDot p := by
  rcases h with rfl | ⟨rest, rfl⟩
  · exact hq
  · unfold LeadingDot at *
    rw [String.append_assoc, String.toList_append, List.head?_append, hq]
    rfl

/-! ## The closure -/

/-- The closure holds the dotted prefixes of the paths that are not empty. -/
theorem mem_closure_iff {q : String} {paths : List String} :
    q ∈ closure paths ↔ q ≠ "" ∧ ∃ p ∈ paths, DottedPrefix q p := by
  simp only [mem_closure, mem_prefixes_iff]
  constructor
  · rintro ⟨p, hp, hne, hprefix⟩
    exact ⟨hne, p, hp, hprefix⟩
  · rintro ⟨hne, p, hp, hprefix⟩
    exact ⟨p, hp, hne, hprefix⟩

/-- The parent of a path of the closure is in the closure, unless it is empty. -/
theorem parent_mem_closure_of_ne {paths : List String} {q parent : String}
    (hq : q ∈ closure paths) (h : parent? q = some parent) (hne : parent ≠ "") :
    parent ∈ closure paths := by
  obtain ⟨-, p, hp, hprefix⟩ := mem_closure_iff.1 hq
  exact mem_closure_iff.2 ⟨hne, p, hp, (dottedPrefix_of_parent? h).trans hprefix⟩

/-- So it is in any case if no path begins with a dot. -/
theorem parent_mem_closure {paths : List String}
    (hdots : ∀ p ∈ paths, p.toList.head? ≠ some '.') {q parent : String} (hq : q ∈ closure paths)
    (h : parent? q = some parent) : parent ∈ closure paths := by
  refine parent_mem_closure_of_ne hq h fun hempty => ?_
  obtain ⟨-, p, hp, hqp⟩ := mem_closure_iff.1 hq
  have hdot : LeadingDot q := (leadingDot_iff_of_parent? h).2 (Or.inl hempty)
  exact hdots p hp (hqp.leadingDot hdot)

end EntitySql.RelationPath
