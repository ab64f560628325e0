import EntitySql.Proofs.Relation.Prefix

/-! # The chain of prefixes

    The prefixes of a path are the paths of its first segments, from the first
    one alone to all of them, except that an empty path is left out. Each prefix
    goes on from the one before it with a dot and one more segment.

    All proofs go from a path to its parent. The prefixes of a path are those of
    its parent and then the path itself (`prefixes_of_parent?_eq_some`), and the
    first segments of the parent are those of the path (`front_of_parent?`).
-/

namespace EntitySql.RelationPath

/-- What holds of single segments, and of a path if it holds of its parent, holds of all paths. -/
@[elab_as_elim]
theorem parentInduct {motive : String → Prop}
    (single : ∀ path, parent? path = none → motive path)
    (child : ∀ path parent, parent? path = some parent → motive parent → motive path)
    (path : String) : motive path := by
  generalize hdepth : depth path = d
  -- the parent has one segment less
  induction d using Nat.strong_induction_on generalizing path with
  | _ d ih =>
    cases hparent : parent? path with
    | none => exact single path hparent
    | some parent =>
      have hstep := depth_of_parent? hparent
      exact child path parent hparent (ih (depth parent) (by omega) parent rfl)

/-! ## First segments -/

/-- The path of the first segments of a path. -/
def front (path : String) (k : Nat) : String := ".".intercalate ((segments path).take k)

theorem front_of_depth_le {path : String} {k : Nat} (h : depth path ≤ k) : front path k = path := by
  rw [front, List.take_of_length_le h, intercalate_segments]

/-- The first segments of a path are those of its parent, if the last one is not among them. -/
theorem front_of_parent? {path parent : String} (h : parent? path = some parent) {k : Nat}
    (hk : k ≤ depth parent) : front path k = front parent k := by
  rw [front, front, segments_of_parent?_eq_some h, List.take_append_of_le_length hk]

/-- The path of the first `k` segments has `k` segments. -/
theorem depth_front {path : String} {k : Nat} (hpos : 1 ≤ k) (hk : k ≤ depth path) :
    depth (front path k) = k := by
  induction path using parentInduct with
  | single path hparent =>
    have hdepth := parent?_eq_none_iff.1 hparent
    rw [front_of_depth_le (by omega)]
    omega
  | child path parent hparent ih =>
    have hdepth := depth_of_parent? hparent
    by_cases hlast : k ≤ depth parent
    · rw [front_of_parent? hparent hlast]
      exact ih hlast
    · -- the last segment is among them, so they are all
      rw [front_of_depth_le (by omega)]
      omega

/-! ## Prefixes -/

/-- What is cut off behind a dot begins with all that is before the dot. -/
theorem cuts_append_dot (cs ds : List Char) :
    cuts (cs ++ '.' :: ds) = cuts cs ++ (cuts ds).map fun rest => cs ++ '.' :: rest := by
  induction cs with
  | nil => simp [cuts]
  | cons c cs ih => simp [cuts, ih]

theorem cuts_of_not_mem {cs : List Char} (h : '.' ∉ cs) : cuts cs = [cs] := by
  induction cs with
  | nil => rfl
  | cons c cs ih =>
    obtain ⟨hc, hcs⟩ := not_or.1 (mt List.mem_cons.2 h)
    rw [cuts, if_neg (Ne.symm hc), ih hcs]
    rfl

/-- A single segment has no prefix but itself, and not even that if it is empty. -/
theorem prefixes_of_parent?_eq_none {path : String} (h : parent? path = none) :
    prefixes path = [path].filter (· ≠ "") := by
  rw [prefixes, cuts_of_not_mem (parent?_eq_none_iff_dot_not_mem.1 h)]
  by_cases hempty : path = ""
  · rw [hempty]
    rfl
  · simp [hempty]

/-- The prefixes of any other path are those of its parent and the path itself. -/
theorem prefixes_of_parent?_eq_some {path parent : String} (h : parent? path = some parent) :
    prefixes path = prefixes parent ++ [path] := by
  obtain ⟨-, hdots⟩ := eq_of_parent?_eq_some h
  have hchars := toList_of_parent?_eq_some h
  have hcuts : cuts path.toList = cuts parent.toList ++ [path.toList] := by
    conv_lhs => rw [hchars]
    rw [cuts_append_dot, cuts_of_not_mem hdots, List.map_singleton, ← hchars]
  have hlast : [path.toList].filter (!·.isEmpty) = [path.toList] := by simp [hchars]
  rw [prefixes, hcuts, List.filter_append, List.map_append, hlast, List.map_singleton,
    String.ofList_toList]
  rfl

/-- A path that is not empty is the last one of its prefixes. -/
theorem exists_prefixes_eq_concat {path : String} (hne : path ≠ "") :
    ∃ before, prefixes path = before ++ [path] := by
  cases hparent : parent? path with
  | none => exact ⟨[], by simp [prefixes_of_parent?_eq_none hparent, hne]⟩
  | some parent => exact ⟨prefixes parent, prefixes_of_parent?_eq_some hparent⟩

/-- The prefixes are the paths of the first segments that are not empty. -/
theorem prefixes_eq_fronts (path : String) :
    prefixes path = ((List.range' 1 (depth path)).map (front path)).filter (· ≠ "") := by
  induction path using parentInduct with
  | single path hparent =>
    have hdepth := parent?_eq_none_iff.1 hparent
    have hfront : front path 1 = path := front_of_depth_le hdepth.le
    rw [prefixes_of_parent?_eq_none hparent, hdepth, List.range'_one, List.map_singleton, hfront]
  | child path parent hparent ih =>
    have hdepth := depth_of_parent? hparent
    -- the shorter fronts of the path are those of its parent
    have hfronts : (List.range' 1 (depth parent)).map (front path) =
        (List.range' 1 (depth parent)).map (front parent) := by
      refine List.map_congr_left fun k hk => front_of_parent? hparent ?_
      have hbounds := List.mem_range'_1.1 hk
      omega
    have hlast : front path (1 + depth parent) = path := front_of_depth_le (by omega)
    have hne : path ≠ "" := by
      rintro rfl
      have hnone : parent? "" = none := rfl
      exact absurd (hnone.symm.trans hparent) nofun
    rw [prefixes_of_parent?_eq_some hparent, ih, hdepth, List.range'_1_concat, List.map_append,
      List.filter_append, hfronts, List.map_singleton, hlast]
    simp [hne]

/-- The parent of a prefix, unless it is empty, is the prefix right before it. -/
theorem parent_infix_prefixes {path q parent : String} (hq : q ∈ prefixes path)
    (h : parent? q = some parent) (hne : parent ≠ "") : [parent, q] <:+: prefixes path := by
  induction path using parentInduct with
  | single path hparent =>
    rw [prefixes_of_parent?_eq_none hparent] at hq
    obtain rfl := List.mem_singleton.1 (List.mem_of_mem_filter hq)
    exact absurd (hparent.symm.trans h) nofun
  | child path parent' hparent ih =>
    rw [prefixes_of_parent?_eq_some hparent] at hq ⊢
    rcases List.mem_append.1 hq with hbefore | hlast
    · exact List.infix_append_of_infix_left (ih hbefore)
    · -- the path itself comes after its parent, which ends its own prefixes
      obtain rfl := List.mem_singleton.1 hlast
      obtain rfl := Option.some.inj (hparent.symm.trans h)
      obtain ⟨before, hbefore⟩ := exists_prefixes_eq_concat hne
      exact ⟨before, [], by simp [hbefore]⟩

/-- The prefixes of a path, in increasing length, are those of the paths of its first `k` segments
    that are not empty, for `k` from one to its depth. Each of these has `k` segments. A prefix that
    has a parent is that parent, a dot and its last segment, and the parent, unless it is empty, is
    the prefix right before it. -/
theorem prefixes_eq_filter_front (path : String) :
    prefixes path = ((List.range' 1 (depth path)).map (front path)).filter (· ≠ "") ∧
      ((prefixes path).Pairwise fun q r => q.length < r.length) ∧
      (∀ k, 1 ≤ k → k ≤ depth path → depth (front path k) = k) ∧
      ∀ q ∈ prefixes path, ∀ parent, parent? q = some parent →
        q = parent ++ "." ++ lastSegment q ∧ (parent ≠ "" → [parent, q] <:+: prefixes path) := by
  refine ⟨prefixes_eq_fronts path, pairwise_length_prefixes path, fun k => depth_front, ?_⟩
  intro q hq parent hparent
  exact ⟨(eq_of_parent?_eq_some hparent).1, parent_infix_prefixes hq hparent⟩

/-- A path that begins with two dots. Its first segment is left out, since it is the empty path, and
    so is not listed before the single dot, whose parent it is. -/
theorem prefixes_eq_filter_front_leadingDots :
    let path := "..home.city"
    (List.range' 1 (depth path)).map (front path) = ["", ".", "..home", "..home.city"] ∧
      prefixes path = [".", "..home", "..home.city"] ∧
      depth (front path 3) = 3 ∧
      parent? "." = some "" ∧
      parent? "..home" = some "." ∧
      "..home" = "." ++ "." ++ lastSegment "..home" ∧
      [".", "..home"] <:+: prefixes path := by
  intro path
  -- the first front is empty and is no prefix
  have hfronts : (List.range' 1 (depth path)).map (front path) =
      ["", ".", "..home", "..home.city"] := by
    decide +kernel
  have hparent : parent? "..home" = some "." := by decide +kernel
  obtain ⟨hprefixes, -, hdepth, hparents⟩ := prefixes_eq_filter_front path
  replace hprefixes : prefixes path = [".", "..home", "..home.city"] := by
    rw [hprefixes, hfronts]
    decide
  have hmem : "..home" ∈ prefixes path := by
    rw [hprefixes]
    decide
  obtain ⟨hhome, hbefore⟩ := hparents "..home" hmem "." hparent
  exact ⟨hfronts, hprefixes, hdepth 3 (by decide) (by decide +kernel), by decide +kernel, hparent,
    hhome, hbefore (by decide)⟩

end EntitySql.RelationPath
