import EntitySql.Proofs.Relation.Prefix

/-! # Aliases read back

    The alias of a path is its segments with two underscores between them, and
    the alias of a column that is selected through the path has two underscores
    and the column behind that. Such an alias can be cut at each leftmost pair of
    underscores. A cut is where a segment ends if no pair of underscores is in
    the segment and none begins at its end. This is just what it takes for
    segments to be read back, the last one apart, in which there may only be no
    pair (`decode_eq_iff`). So well-named paths are read back from their aliases,
    and no two of them have the same one.

    In general an alias of a column may have been put together in several ways,
    from an alias and a column each. Then one alias goes on where the other one
    ends, with what the column of that one begins with (`columnAlias_eq_iff`).
-/

namespace EntitySql.RelationPath

/-! ## Cutting at pairs of underscores -/

/-- Two underscores in a row, somewhere in the text. -/
def HasSeparator (cs : List Char) : Prop := ['_', '_'] <:+: cs

instance (cs : List Char) : Decidable (HasSeparator cs) := inferInstanceAs (Decidable (_ <:+: _))

/-- A text that the first pair of underscores ends when one is put behind it. -/
structure Separable (cs : List Char) : Prop where
  inside : ¬HasSeparator cs
  last : cs.getLast? ≠ some '_'

instance (cs : List Char) : Decidable (Separable cs) :=
  decidable_of_iff (¬HasSeparator cs ∧ cs.getLast? ≠ some '_')
    ⟨fun h => ⟨h.1, h.2⟩, fun h => ⟨h.inside, h.last⟩⟩

/-- What stands between the pairs of underscores of a text, of which each begins as far to the
    left as possible. -/
def cut : List Char → List (List Char)
  | [] => [[]]
  | [c] => [[c]]
  | c :: d :: cs =>
    if c = '_' ∧ d = '_' then [] :: cut cs else (cut (d :: cs)).modifyHead (c :: ·)

theorem hasSeparator_cons {c : Char} {cs : List Char} (h : HasSeparator cs) :
    HasSeparator (c :: cs) := h.trans (List.suffix_cons c cs).isInfix

theorem not_pair_of_not_hasSeparator {c d : Char} {cs : List Char}
    (h : ¬HasSeparator (c :: d :: cs)) : ¬(c = '_' ∧ d = '_') := by
  rintro ⟨rfl, rfl⟩
  exact h ⟨[], cs, rfl⟩

theorem cut_eq_singleton {cs : List Char} (h : ¬HasSeparator cs) : cut cs = [cs] := by
  fun_induction cut cs with
  | case1 => rfl
  | case2 c => rfl
  | case3 c d cs hpair ih => exact absurd hpair (not_pair_of_not_hasSeparator h)
  | case4 c d cs hpair ih => rw [ih (mt hasSeparator_cons h), List.modifyHead_cons]

theorem cut_append {cs : List Char} (h : Separable cs) (rest : List Char) :
    cut (cs ++ '_' :: '_' :: rest) = cs :: cut rest := by
  induction cs with
  | nil => rfl
  | cons c cs ih =>
    cases cs with
    | nil =>
      -- the pair cannot begin at the only character of the text
      have hc : ¬(c = '_' ∧ '_' = '_') := fun hpair => h.last (congrArg some hpair.1)
      rw [List.singleton_append, cut, if_neg hc]
      rfl
    | cons d cs =>
      have hrest : Separable (d :: cs) :=
        ⟨mt hasSeparator_cons h.inside, by simpa using h.last⟩
      have hpair := not_pair_of_not_hasSeparator h.inside
      show cut (c :: d :: (cs ++ _)) = _
      rw [cut, if_neg hpair, ← List.cons_append, ih hrest, List.modifyHead_cons]

/-- Texts with pairs of underscores between them are read back, if such a pair can follow each of
    them but the last one, in which there is none. -/
theorem cut_intercalate {parts : List (List Char)} (h : ∀ part ∈ parts, Separable part)
    {last : List Char} (hlast : ¬HasSeparator last) :
    cut (['_', '_'].intercalate (parts ++ [last])) = parts ++ [last] := by
  induction parts with
  | nil =>
    rw [List.nil_append, List.intercalate_singleton]
    exact cut_eq_singleton hlast
  | cons part parts ih =>
    -- each part is separable, so the first pair of underscores is the one behind it
    obtain ⟨hpart, hparts⟩ := List.forall_mem_cons.1 h
    rw [List.cons_append, List.intercalate_cons_of_ne_nil (by simp), List.append_assoc]
    show cut (part ++ '_' :: '_' :: ['_', '_'].intercalate (parts ++ [last])) = _
    rw [cut_append hpart, ih hparts]

/-- A text with a pair of underscores is one that its first pair ends, and what is behind. -/
theorem exists_separable_of_hasSeparator {cs : List Char} (h : HasSeparator cs) :
    ∃ first rest, Separable first ∧ cs = first ++ '_' :: '_' :: rest := by
  induction cs with
  | nil => exact absurd h (by decide)
  | cons c cs ih =>
    by_cases hhere : ['_', '_'] <+: c :: cs
    · obtain ⟨rest, hrest⟩ := hhere
      exact ⟨[], rest, by decide, hrest.symm⟩
    · -- no pair is at the start, so the first one is further on
      obtain ⟨first, rest, hfirst, rfl⟩ := ih ((List.infix_cons_iff.1 h).resolve_left hhere)
      refine ⟨c :: first, rest, ⟨fun hinside => ?_, fun hlast => ?_⟩, rfl⟩
      · rcases List.infix_cons_iff.1 hinside with hstart | hlater
        · exact hhere (hstart.trans (List.prefix_append (c :: first) _))
        · exact hfirst.inside hlater
      · cases first with
        | nil =>
          obtain rfl : c = '_' := by simpa using hlast
          exact hhere ⟨'_' :: rest, rfl⟩
        | cons d first => exact hfirst.last (by simpa using hlast)

/-- So each text can be cut at such pairs until there is none any more. -/
theorem exists_eq_intercalate (cs : List Char) :
    ∃ parts last, (∀ part ∈ parts, Separable part) ∧ ¬HasSeparator last ∧
      cs = ['_', '_'].intercalate (parts ++ [last]) := by
  induction hlength : cs.length using Nat.strong_induction_on generalizing cs with
  | _ n ih =>
    -- cut off what is before the first pair and go on with the rest, which is shorter
    by_cases h : HasSeparator cs
    · obtain ⟨first, rest, hfirst, rfl⟩ := exists_separable_of_hasSeparator h
      have hless : rest.length < n := by
        rw [← hlength, List.length_append, List.length_cons, List.length_cons]
        omega
      obtain ⟨parts, last, hparts, hlast, rfl⟩ := ih rest.length hless rest rfl
      refine ⟨first :: parts, last, List.forall_mem_cons.2 ⟨hfirst, hparts⟩, hlast, ?_⟩
      rw [List.cons_append, List.intercalate_cons_of_ne_nil (by simp), List.append_assoc]
      rfl
    · exact ⟨[], cs, nofun, h, List.intercalate_singleton.symm⟩

/-- What a text is cut into: the texts of which it consists with pairs of underscores between them,
    if there is none in the last one, and such a pair ends each of the others. -/
theorem cut_eq_iff {cs last : List Char} {parts : List (List Char)} :
    cut cs = parts ++ [last] ↔
      cs = ['_', '_'].intercalate (parts ++ [last]) ∧ (∀ part ∈ parts, Separable part) ∧
        ¬HasSeparator last := by
  constructor
  · intro h
    -- every text is put together in this way, and cutting gives its parts back
    obtain ⟨parts', last', hparts, hlast, rfl⟩ := exists_eq_intercalate cs
    rw [cut_intercalate hparts hlast] at h
    obtain ⟨rfl, heq⟩ := List.append_inj' h rfl
    obtain rfl := List.singleton_inj.1 heq
    exact ⟨rfl, hparts, hlast⟩
  · rintro ⟨rfl, hparts, hlast⟩
    exact cut_intercalate hparts hlast

/-- The parts of a name between its pairs of underscores. -/
def decode (name : String) : List String := (cut name.toList).map String.ofList

theorem decode_eq_iff_cut {name : String} {parts : List String} :
    decode name = parts ↔ cut name.toList = parts.map String.toList := by
  have hto (xs : List (List Char)) : (xs.map String.ofList).map String.toList = xs := by simp
  have hof (xs : List String) : (xs.map String.toList).map String.ofList = xs := by simp
  unfold decode
  constructor
  · rintro rfl
    exact (hto _).symm
  · intro h
    rw [h, hof]

/-- Texts are read back from the name that they make with pairs of underscores between them just if
    such a pair can end each of them but the last one, in which there is none. -/
theorem decode_eq_iff {name last : String} {parts : List String} :
    decode name = parts ++ [last] ↔
      name = "__".intercalate (parts ++ [last]) ∧ (∀ part ∈ parts, Separable part.toList) ∧
        ¬HasSeparator last.toList := by
  rw [decode_eq_iff_cut, List.map_append, List.map_singleton, cut_eq_iff, List.forall_mem_map,
    ← String.toList_inj, String.toList_intercalate, List.map_append, List.map_singleton]
  rfl

/-! ## Aliases of paths -/

/-- The alias of a path is its segments with pairs of underscores between them. -/
theorem flatMap_aliasChar (cs : List Char) :
    cs.flatMap aliasChar = ['_', '_'].intercalate (cs.splitOn '.') := by
  induction cs with
  | nil => rfl
  | cons c cs ih =>
    obtain ⟨part, parts, hparts⟩ := List.exists_cons_of_ne_nil (List.splitOn_ne_nil '.' cs)
    -- a dot begins a new segment, any other character goes on with the first one
    rw [List.flatMap_cons, ih, List.splitOn_cons_eq_if_modifyHead, hparts]
    by_cases hc : c = '.'
    · rw [if_pos (beq_iff_eq.2 hc), List.intercalate_cons_cons, aliasChar, if_pos hc]
      rfl
    · rw [if_neg (mt beq_iff_eq.1 hc), aliasChar, if_neg hc, List.modifyHead_cons]
      cases parts with
      | nil => simp
      | cons next parts => simp [List.intercalate_cons_cons]

theorem aliasOf_eq_intercalate (path : String) :
    aliasOf path = "__".intercalate (segments path) := by
  apply String.toList_injective
  rw [aliasOf, String.toList_ofList, flatMap_aliasChar, String.toList_intercalate,
    map_toList_segments]
  rfl

/-- A path whose segments have no pair of underscores in them and no underscore at their end. -/
def WellNamed (path : String) : Prop := ∀ segment ∈ segments path, Separable segment.toList

instance (path : String) : Decidable (WellNamed path) := List.decidableBAll _ (segments path)

/-- A path is read back from its alias just if a pair of underscores can end each segment before the
    last one, in which there is none. -/
theorem decode_aliasOf_eq_iff {path : String} :
    decode (aliasOf path) = segments path ↔
      (∀ segment ∈ (segments path).dropLast, Separable segment.toList) ∧
        ¬HasSeparator (lastSegment path).toList := by
  have h : decode (aliasOf path) = (segments path).dropLast ++ [lastSegment path] ↔ _ :=
    decode_eq_iff
  rw [← segments_eq_concat, ← aliasOf_eq_intercalate] at h
  exact h.trans (and_iff_right rfl)

theorem WellNamed.decode_aliasOf {path : String} (h : WellNamed path) :
    decode (aliasOf path) = segments path := by
  refine decode_aliasOf_eq_iff.2 ⟨fun segment hsegment => ?_, ?_⟩
  · exact h segment ((List.dropLast_subset _) hsegment)
  · exact (h _ (List.mem_of_getLast? (getLast?_segments path))).inside

/-- The alias of a well-named path, cut at each leftmost pair of underscores, gives its segments.
    So no other well-named path has the same alias. -/
theorem decode_aliasOf_of_wellNamed {path : String} (h : WellNamed path) :
    decode (aliasOf path) = segments path ∧
      ∀ other, WellNamed other → other ≠ path → aliasOf other ≠ aliasOf path := by
  refine ⟨h.decode_aliasOf, fun other hother hne halias => hne (segments_injective ?_)⟩
  rw [← hother.decode_aliasOf, halias, h.decode_aliasOf]

/-- Five underscores in a row, of which the last one is where a segment begins, and an empty segment
    before it. A path without the empty segment has another alias. -/
theorem decode_aliasOf_of_wellNamed_underscores :
    let path := "_a.._b.c_d"
    WellNamed path ∧ WellNamed "_a._b.c_d" ∧
      aliasOf path = "_a_____b__c_d" ∧
      decode "_a_____b__c_d" = ["_a", "", "_b", "c_d"] ∧
      aliasOf "_a._b.c_d" ≠ aliasOf path := by
  intro path
  have hpath : WellNamed path := by decide +kernel
  have hother : WellNamed "_a._b.c_d" := by decide +kernel
  have halias : aliasOf path = "_a_____b__c_d" := by decide +kernel
  have hsegments : segments path = ["_a", "", "_b", "c_d"] := by decide +kernel
  obtain ⟨hdecode, hapart⟩ := decode_aliasOf_of_wellNamed hpath
  rw [halias, hsegments] at hdecode
  exact ⟨hpath, hother, halias, hdecode, hapart _ hother (by decide)⟩

/-! ## Aliases of columns -/

theorem columnAlias_eq_intercalate (path key : String) :
    columnAlias (aliasOf path) key = "__".intercalate (segments path ++ [key]) := by
  rw [columnAlias, aliasOf_eq_intercalate, String.intercalate_append_of_ne_nil
    (segments_ne_nil path) (List.cons_ne_nil key []), String.intercalate_singleton]

/-- The alias of a column through a well-named path is cut into the segments of the path and the
    column, if the column has no pair of underscores. -/
theorem decode_columnAlias {path key : String} (hpath : WellNamed path)
    (hkey : ¬HasSeparator key.toList) :
    decode (columnAlias (aliasOf path) key) = segments path ++ [key] :=
  decode_eq_iff.2 ⟨columnAlias_eq_intercalate path key, hpath, hkey⟩

/-- So the alias determines the path and the column. -/
theorem eq_of_columnAlias_eq {path path' key key' : String} (hpath : WellNamed path)
    (hpath' : WellNamed path') (hkey : ¬HasSeparator key.toList)
    (hkey' : ¬HasSeparator key'.toList)
    (h : columnAlias (aliasOf path) key = columnAlias (aliasOf path') key') :
    path = path' ∧ key = key' := by
  have hdecode := decode_columnAlias hpath hkey
  rw [h, decode_columnAlias hpath' hkey'] at hdecode
  obtain ⟨hsegments, hlast⟩ := List.append_inj' hdecode rfl
  exact ⟨(segments_injective hsegments).symm, (List.singleton_inj.1 hlast).symm⟩

/-- The second alias goes on where the first one ends, with what the first column begins with: a
    pair of underscores in that column is where the second column begins, or the underscore that
    it begins with is the one that the second alias ends with. -/
def Continues (a k a' k' : String) : Prop :=
  (∃ middle, a' = a ++ "__" ++ middle ∧ k = middle ++ "__" ++ k') ∨ a' = a ++ "_" ∧ k = "_" ++ k'

/-- Two pairs of underscores, of which the first one is somewhere before the second. -/
theorem separator_append_eq_iff {t cs ds : List Char} :
    '_' :: '_' :: cs = t ++ '_' :: '_' :: ds ↔
      t = [] ∧ cs = ds ∨ t = ['_'] ∧ cs = '_' :: ds ∨
        ∃ middle, t = '_' :: '_' :: middle ∧ cs = middle ++ '_' :: '_' :: ds := by
  match t with
  | [] => simp
  | [c] => simp [eq_comm]
  | c :: d :: t => simp [and_assoc, eq_comm]

theorem Continues.columnAlias_eq {a k a' k' : String} (h : Continues a k a' k') :
    columnAlias a k = columnAlias a' k' := by
  unfold columnAlias
  rcases h with ⟨middle, rfl, rfl⟩ | ⟨rfl, rfl⟩
  · simp only [String.append_assoc]
  · have hpair : "__" ++ ("_" ++ k') = "_" ++ ("__" ++ k') := by
      rw [← String.append_assoc, ← String.append_assoc]
      rfl
    rw [String.append_assoc, String.append_assoc, hpair, String.append_assoc]

/-- Of two ways to put an alias together, the one with the longer alias continues the other. -/
theorem eq_or_continues {a k a' k' : String} {t : List Char} (ha : a'.toList = a.toList ++ t)
    (h : '_' :: '_' :: k.toList = t ++ '_' :: '_' :: k'.toList) :
    a = a' ∧ k = k' ∨ Continues a k a' k' := by
  -- the rest is empty, a single underscore, or begins with a pair
  rcases separator_append_eq_iff.1 h with ⟨rfl, hk⟩ | ⟨rfl, hk⟩ | ⟨middle, rfl, hk⟩
  · refine Or.inl ⟨String.toList_injective ?_, String.toList_injective hk⟩
    rw [ha, List.append_nil]
  · refine Or.inr (Or.inr ⟨String.toList_injective ?_, String.toList_injective ?_⟩)
    · rw [ha, String.toList_append]
      rfl
    · rw [hk, String.toList_append]
      rfl
  · refine Or.inr (Or.inl ⟨String.ofList middle, String.toList_injective ?_,
      String.toList_injective ?_⟩)
    · simp [ha]
    · simp [hk]

/-- The ways to put together an alias of a column. -/
theorem columnAlias_eq_iff {a k a' k' : String} :
    columnAlias a k = columnAlias a' k' ↔
      a = a' ∧ k = k' ∨ Continues a k a' k' ∨ Continues a' k' a k := by
  constructor
  · intro h
    have hchars := congrArg String.toList h
    simp only [columnAlias, String.toList_append, List.append_assoc] at hchars
    -- one of the two aliases is what the other one begins with
    rcases List.append_eq_append_iff.1 hchars with ⟨t, ha, hk⟩ | ⟨t, ha, hk⟩
    · rcases eq_or_continues ha hk with hsame | hcontinues
      · exact Or.inl hsame
      · exact Or.inr (Or.inl hcontinues)
    · rcases eq_or_continues ha hk with ⟨rfl, rfl⟩ | hcontinues
      · exact Or.inl ⟨rfl, rfl⟩
      · exact Or.inr (Or.inr hcontinues)
  · rintro (⟨rfl, rfl⟩ | hcontinues | hcontinues)
    · rfl
    · exact hcontinues.columnAlias_eq
    · exact hcontinues.columnAlias_eq.symm

end EntitySql.RelationPath
