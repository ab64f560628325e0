import EntitySql.Proofs.Condition.Shape
import EntitySql.Proofs.Rendering
import Mathlib.Data.List.Pairwise

/-! # Precedence in written condition groups

    Parentheses are left out around a nested group with one written member,
    whatever that member is. If the group has alternatives as its only member,
    these are written as if they stood in the group, and inside of an AND their
    OR is then read last. Such trees are not *well nested*.

    The text of a well nested tree means what the tree means. The text of any
    tree is true wherever the tree is, so it never loses rows; and if the atoms
    of a tree are distinct and it is not well nested, then its text is true
    somewhere where the tree is not.
-/

namespace EntitySql

namespace Condition

/-! ## Well nested trees -/

mutual

/-- Whether an OR of the condition stands outside of parentheses when the condition is written
    as a member of a group with the given connective. -/
def showsOr (outer : Connective) : Condition → Bool
  | predicate _ => false
  | raw _ => false
  | group c members =>
    (c == outer || (written members).length == 1) &&
      ((c == .or && 1 < (written members).length) || anyShowsOr c members)

def anyShowsOr (c : Connective) : List Condition → Bool
  | [] => false
  | m :: ms => (!m.isEmpty && m.showsOr c) || anyShowsOr c ms

end

mutual

/-- Whether no OR stands outside of parentheses beside an AND. -/
def wellNested : Condition → Bool
  | predicate _ => true
  | raw _ => true
  | group c members =>
    (c == .or || (written members).length == 1 || !anyShowsOr .and members) &&
      allWellNested members

def allWellNested : List Condition → Bool
  | [] => true
  | m :: ms => (m.isEmpty || m.wellNested) && allWellNested ms

end

theorem anyShowsOr_eq_any (c : Connective) (ms : List Condition) :
    anyShowsOr c ms = (written ms).any (showsOr c) := by
  induction ms with
  | nil => rfl
  | cons m ms ih => cases h : m.isEmpty <;> simp [anyShowsOr, written_cons, h, ih]

theorem allWellNested_eq_all (ms : List Condition) :
    allWellNested ms = (written ms).all wellNested := by
  induction ms with
  | nil => rfl
  | cons m ms ih => cases h : m.isEmpty <;> simp [allWellNested, written_cons, h, ih]

/-- A group of which something is written has one written member or several. -/
theorem single_or_several {c : Connective} {ms : List Condition}
    (hne : (group c ms).isEmpty = false) : (∃ m, written ms = [m]) ∨ 1 < (written ms).length := by
  match h : written ms with
  | [] => exact absurd h (written_ne_nil hne)
  | [m] => exact .inl ⟨m, rfl⟩
  | _ :: _ :: _ => exact .inr (by simp)

/-- A condition has more than one alternative if and only if it shows an OR. -/
theorem isMany_shapeIn {c : Condition} (hne : c.isEmpty = false) (v : Valuation)
    (outer : Connective) : (c.shapeIn v outer).isMany = c.showsOr outer := by
  induction c, hne using inductWritten generalizing outer with
  | predicate p => rfl
  | raw sql => rfl
  | group c ms hne ih =>
    rw [shapeIn_group, showsOr, anyShowsOr_eq_any]
    -- a single member is written without parentheses, whatever the connectives are
    rcases single_or_several hne with ⟨m, hm⟩ | hlen
    · have hmem := ih m (by simp [hm]) c
      simp [hm, hmem]
    · have hone : (written ms).length ≠ 1 := by omega
      by_cases hc : c = outer
      · subst hc
        cases c with
        | and =>
          have hany : (written ms).any (fun m => (m.shapeIn v .and).isMany) =
              (written ms).any (showsOr .and) := by
            rw [Bool.eq_iff_iff, List.any_eq_true, List.any_eq_true]
            exact exists_congr fun m => and_congr_right fun hm => by rw [ih m hm]
          simp [Shape.isMany_joinAll_and, Function.comp_def, hany]
        | or => simp [Shape.isMany_joinAll_or, hlen]
      · simp [hc, hlen, hone]

/-! ## The text of a well nested tree -/

/-- Without an OR beside an AND the text has the value of the tree. -/
theorem value_shapeIn_of_wellNested {c : Condition} (hne : c.isEmpty = false)
    (h : c.wellNested = true) (v : Valuation) (outer : Connective) :
    (c.shapeIn v outer).value = c.holds v := by
  induction c, hne using inductWritten generalizing outer with
  | predicate p => rfl
  | raw sql => rfl
  | group c ms hne ih =>
    rw [wellNested, anyShowsOr_eq_any, allWellNested_eq_all, Bool.and_eq_true] at h
    obtain ⟨hjoin, hall⟩ := h
    have hmem : ∀ m ∈ written ms, (m.shapeIn v c).value = m.holds v :=
      fun m hm => ih m hm (List.all_eq_true.1 hall m hm) c
    rw [value_shapeIn_group]
    rcases single_or_several hne with ⟨m, hm⟩ | hlen
    · have hvalue := hmem m (by simp [hm])
      cases c with
      | and => simp [holds_and, hm, hvalue]
      | or => simp [holds_or, hm, hvalue]
    · cases c with
      | and =>
        have hone : (written ms).length ≠ 1 := by omega
        -- no member shows an OR, so the AND is between the values of the members
        have hshow : ∀ m ∈ written ms, m.showsOr .and = false := by simpa [hone] using hjoin
        have hmany : ∀ s ∈ (written ms).map (shapeIn v .and), s.isMany = false := by
          refine List.forall_mem_map.2 fun m hm => ?_
          rw [isMany_shapeIn (mem_written.1 hm).2, hshow m hm]
        rw [Shape.value_joinAll_and hmany, holds_and, List.all_map]
        exact Bool.eq_iff_iff.2 (by simp +contextual [List.all_eq_true, hmem])
      | or =>
        rw [Shape.value_joinAll_or (by simpa using written_ne_nil hne), holds_or, List.any_map,
          Bool.eq_iff_iff, List.any_eq_true, List.any_eq_true]
        exact exists_congr fun m => and_congr_right fun hm => by simp [hmem m hm]

/-! ## The text of any tree -/

/-- The text of a tree is true wherever the tree is. -/
theorem value_shapeIn_of_holds {c : Condition} (hne : c.isEmpty = false) {v : Valuation}
    (h : c.holds v = true) (outer : Connective) : (c.shapeIn v outer).value = true := by
  induction c, hne using inductWritten generalizing outer with
  | predicate p => exact h
  | raw sql => exact h
  | group c ms hne ih =>
    rw [value_shapeIn_group]
    -- all alternatives of an AND hold, or one of those of an OR
    cases c with
    | and =>
      rw [holds_and] at h
      exact Shape.value_joinAll_and_of_forall
        (List.forall_mem_map.2 fun m hm => ih m hm (List.all_eq_true.1 h m hm) .and)
    | or =>
      rw [holds_or] at h
      obtain ⟨m, hm, hv⟩ := List.any_eq_true.1 h
      rw [Shape.value_joinAll_or (by simpa using written_ne_nil hne), List.any_map]
      exact List.any_eq_true.2 ⟨m, hm, ih m hm hv .or⟩

/-- Members at different places of a group with distinct atoms have no atom in common. -/
theorem disjoint_atoms {c : Connective} {ms pre post : List Condition}
    (hnd : (group c ms).atoms.Nodup) (hw : written ms = pre ++ post) {m m' : Condition}
    (hm : m ∈ pre) (hm' : m' ∈ post) : List.Disjoint m.atoms m'.atoms := by
  rw [atoms_group, List.nodup_flatMap, hw, List.pairwise_append] at hnd
  exact hnd.2.2.2 m hm m' hm'

/-- Nor have different members. -/
theorem disjoint_atoms_of_ne {c : Connective} {ms : List Condition}
    (hnd : (group c ms).atoms.Nodup) {m m' : Condition} (hm : m ∈ written ms)
    (hm' : m' ∈ written ms) (hne : m ≠ m') : List.Disjoint m.atoms m'.atoms := by
  rw [atoms_group, List.nodup_flatMap] at hnd
  have : Std.Symm (Function.onFun List.Disjoint atoms) := ⟨fun _ _ h => List.disjoint_symm h⟩
  exact hnd.2.forall hm hm' hne

/-- An AND beside an OR that shows is true somewhere where not all of its members are. -/
theorem exists_valuation_of_showsOr {ms : List Condition} (hnd : (group .and ms).atoms.Nodup)
    (hlen : (written ms).length ≠ 1) {k : Condition} (hk : k ∈ written ms)
    (hshow : k.showsOr .and = true) (outer : Connective) :
    ∃ v, (group .and ms).holds v = false ∧ ((group .and ms).shapeIn v outer).value = true := by
  obtain ⟨pre, post, hw⟩ := List.append_of_mem hk
  -- Another member has only false atoms, and all other atoms are true.
  suffices h : ∃ j ∈ written ms, (∀ m ∈ pre ++ [k], List.Disjoint j.atoms m.atoms) ∨
      ∀ m ∈ k :: post, List.Disjoint j.atoms m.atoms by
    obtain ⟨j, hj, hdisjoint⟩ := h
    let v : Valuation := fun a => decide (a ∉ j.atoms)
    have hjv : j.holds v = false :=
      holds_const (mem_written.1 hj).2 fun a ha => by simp [v, ha]
    have htrue : ∀ m ∈ written ms, List.Disjoint j.atoms m.atoms →
        (m.shapeIn v .and).first = true ∧ (m.shapeIn v .and).last = true := by
      intro m hm hd
      refine shapeIn_of_forall (mem_written.1 hm).2 .and fun a ha => ?_
      exact decide_eq_true fun haj => hd haj ha
    have hmany : (k.shapeIn v .and).isMany = true := by
      rw [isMany_shapeIn (mem_written.1 hk).2, hshow]
    refine ⟨v, ?_, ?_⟩
    · rw [holds_and]
      exact List.all_eq_false.2 ⟨j, hj, by simp [hjv]⟩
    · rw [value_shapeIn_group, hw, List.map_append, List.map_cons]
      rcases hdisjoint with hd | hd
      · refine Shape.value_of_first (Shape.first_joinAll_append hmany ?_)
        rw [← List.map_singleton, ← List.map_append]
        refine List.forall_mem_map.2 fun m hm => (htrue m ?_ (hd m hm)).1
        rw [hw, List.append_cons]
        exact List.mem_append_left _ hm
      · refine Shape.value_of_last (Shape.last_joinAll_append hmany ?_)
        rw [← List.map_cons]
        refine List.forall_mem_map.2 fun m hm => (htrue m ?_ (hd m hm)).2
        rw [hw]
        exact List.mem_append_right _ hm
  -- the other member is the first one, or the next if the one with the OR is the first
  rcases pre with _ | ⟨j, pre⟩
  · rcases post with _ | ⟨j, post⟩
    · exact absurd (by simp [hw]) hlen
    · have hw' : written ms = [k] ++ j :: post := hw
      exact ⟨j, by simp [hw], .inl fun m hm =>
        List.disjoint_symm (disjoint_atoms hnd hw' hm List.mem_cons_self)⟩
  · exact ⟨j, by simp [hw], .inr fun m hm => disjoint_atoms hnd hw List.mem_cons_self hm⟩

/-- If a member is written true somewhere where it is not, so is the group: the atoms of the
    other members can be chosen so that they leave the value of the member to the group. -/
theorem exists_valuation_of_member {c : Connective} {ms : List Condition}
    (hnd : (group c ms).atoms.Nodup) {m : Condition} (hm : m ∈ written ms) {v : Valuation}
    (hv : m.holds v = false) (hvalue : (m.shapeIn v c).value = true) (outer : Connective) :
    ∃ w, (group c ms).holds w = false ∧ ((group c ms).shapeIn w outer).value = true := by
  -- the atoms of other members are true in an AND and false in an OR
  let w : Valuation := fun a => if a ∈ m.atoms then v a else c == .and
  have hwv : ∀ a ∈ m.atoms, w a = v a := fun a ha => by simp [w, ha]
  have hmw : m.holds w = false := by rw [holds_congr (mem_written.1 hm).2 hwv, hv]
  have hmvalue : (m.shapeIn w c).value = true := by
    rw [shapeIn_congr (mem_written.1 hm).2 c hwv, hvalue]
  have hother : ∀ m' ∈ written ms, m' ≠ m → ∀ a ∈ m'.atoms, w a = (c == .and) := by
    intro m' hm' hne' a ha
    have ham : a ∉ m.atoms := fun h => disjoint_atoms_of_ne hnd hm' hm hne' ha h
    simp [w, ham]
  refine ⟨w, ?_, ?_⟩
  · cases c with
    | and =>
      rw [holds_and]
      exact List.all_eq_false.2 ⟨m, hm, by simp [hmw]⟩
    | or =>
      rw [holds_or]
      refine List.any_eq_false.2 fun m' hm' => ?_
      rcases eq_or_ne m' m with rfl | hne'
      · simp [hmw]
      · simp [holds_const (mem_written.1 hm').2 (hother m' hm' hne')]
  · rw [value_shapeIn_group]
    cases c with
    | and =>
      refine Shape.value_joinAll_and_of_forall (List.forall_mem_map.2 fun m' hm' => ?_)
      rcases eq_or_ne m' m with rfl | hne'
      · exact hmvalue
      · exact Shape.value_of_first
          (shapeIn_of_forall (mem_written.1 hm').2 .and (hother m' hm' hne')).1
    | or =>
      have hne : (written ms).map (shapeIn w .or) ≠ [] := by simpa using List.ne_nil_of_mem hm
      rw [Shape.value_joinAll_or hne, List.any_map]
      exact List.any_eq_true.2 ⟨m, hm, hmvalue⟩

/-- If the atoms of a tree are distinct and it is not well nested, its text is true somewhere
    where the tree is not. -/
theorem exists_valuation_of_not_wellNested {c : Condition} (hne : c.isEmpty = false)
    (hnd : c.atoms.Nodup) (h : c.wellNested = false) (outer : Connective) :
    ∃ v, c.holds v = false ∧ (c.shapeIn v outer).value = true := by
  induction c, hne using inductWritten generalizing outer with
  | predicate p => exact absurd h (by simp [wellNested])
  | raw sql => exact absurd h (by simp [wellNested])
  | group c ms hne ih =>
    rw [wellNested, anyShowsOr_eq_any, allWellNested_eq_all, Bool.and_eq_false_iff] at h
    -- an OR shows beside an AND of the group itself, or in one of its members
    rcases h with hjoin | hall
    · simp only [Bool.or_eq_false_iff, beq_eq_false_iff_ne, Bool.not_eq_eq_eq_not,
        Bool.not_false, List.any_eq_true] at hjoin
      obtain ⟨⟨hc, hlen⟩, k, hk, hshow⟩ := hjoin
      obtain rfl : c = .and := by cases c <;> simp_all
      exact exists_valuation_of_showsOr hnd hlen hk hshow outer
    · obtain ⟨m, hm, hbad⟩ := List.all_eq_false.1 hall
      have hmnd : m.atoms.Nodup := by
        rw [atoms_group, List.nodup_flatMap] at hnd
        exact hnd.1 m hm
      obtain ⟨v, hv, hvalue⟩ := ih m hm hmnd (by simpa using hbad) c
      exact exists_valuation_of_member hnd hm hv hvalue outer

end Condition

/-! ## The text of a group -/

namespace ConditionGroup

/-- Whether no OR stands outside of parentheses beside an AND in the text of the group. -/
def wellNested (g : ConditionGroup) : Bool := g.toCondition.wellNested

/-- If all predicates render, the text of a group that is not empty is its tokens, and these
    spell one formula. The formula is true wherever the group is, and it has the value of the
    group if the group is well nested. If the group is not well nested and its atoms are
    distinct, the formula is true somewhere where the group is not. -/
theorem tokens_spell_meaning (g : ConditionGroup) (hne : g.isEmpty = false)
    (hr : ∀ p ∈ g.predicates, p.rendering.failure = none) :
    g.rendering.failure = none ∧
      g.rendering.elements = g.tokens.flatMap (fun t => t.rendering.elements) ∧
      ∃ f, Formula.read g.tokens = some f ∧
        (∀ v, g.holds v = true → f.eval v = true) ∧
        (g.wellNested = true → ∀ v, f.eval v = g.holds v) ∧
        (g.wellNested = false → g.atoms.Nodup → ∃ v, g.holds v = false ∧ f.eval v = true) := by
  have hne' : g.toCondition.isEmpty = false := hne
  -- only predicates can fail, and those of the group do not
  have hok : ∀ r ∈ g.tokens.map Condition.Token.rendering, r.failure = none := by
    refine List.forall_mem_map.2 fun t ht => ?_
    cases t with
    | predicate p => exact hr p (Condition.mem_predicates_of_mem_atoms
        (c := g.toCondition) (mem_atoms_of_mem_tokens ht rfl))
    | raw sql => rfl
    | connective c => rfl
    | opening => rfl
    | closing => rfl
  obtain ⟨hfail, helements⟩ := Rendering.concat_of_ok hok
  -- the text is read as a formula whose value is that of the shape, under any valuation
  have hshape := Condition.hasShape_tokensIn hne' g.connective
  rw [tokensIn_toCondition] at hshape
  obtain ⟨f, hread, hf⟩ := hshape.read
  refine ⟨hfail, by rw [rendering, helements, List.flatMap_map], f, hread, fun v hv => ?_,
    fun hw v => ?_, fun hw hnd => ?_⟩
  · rw [hf]
    exact Condition.value_shapeIn_of_holds hne' hv g.connective
  · rw [hf]
    exact Condition.value_shapeIn_of_wellNested hne' hw v g.connective
  · obtain ⟨v, hv, hvalue⟩ :=
      Condition.exists_valuation_of_not_wellNested hne' hnd hw g.connective
    exact ⟨v, hv, by rw [hf, hvalue]⟩

/-- `a OR (length(b) > 3 AND (c OR d))`, where the alternatives stand in a group of their own
    beside an empty one. -/
theorem tokens_spell_meaning_nested :
    let g : ConditionGroup := ⟨.or, [.predicate (.bare (.key "a")), .group .and [.raw "  ",
      .raw "length(b) > 3", .group .or [.predicate (.bare (.key "c")), .group .and [],
        .predicate (.bare (.key "d"))]]]⟩
    g.isEmpty = false ∧ (∀ p ∈ g.predicates, p.rendering.failure = none) ∧
      ∃ f, Formula.read g.tokens = some f ∧ ∀ v, f.eval v = g.holds v := by
  intro g
  have hne : g.isEmpty = false := by decide
  have hr : ∀ p ∈ g.predicates, p.rendering.failure = none := by decide
  obtain ⟨-, -, f, hread, -, hf, -⟩ := tokens_spell_meaning g hne hr
  exact ⟨hne, hr, f, hread, hf (by decide)⟩

/-- `a AND b OR c` is written for `a AND ((b OR c))`, and it is true if only `c` is. -/
theorem tokens_lose_meaning :
    let g : ConditionGroup := ⟨.and, [.predicate (.bare (.key "a")),
      .group .or [.group .or [.predicate (.bare (.key "b")), .predicate (.bare (.key "c"))]]]⟩
    let v : Valuation := fun a => a == .predicate (.bare (.key "c"))
    g.isEmpty = false ∧ (∀ p ∈ g.predicates, p.rendering.failure = none) ∧
      g.holds v = false ∧ (Formula.read g.tokens).map (Formula.eval v) = some true := by
  decide

end ConditionGroup

end EntitySql
