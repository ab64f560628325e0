import EntitySql.Compilation
import EntitySql.Proofs.Condition.Traversal

/-! # Replaced predicates

    A traversal that succeeds gives a tree of the same form: groups stay where
    they are, with their connectives, and so do texts. Only the predicates are
    others, each the replacement of the one in its place (`ReplacedBy`). No
    other tree is so related to the one that is traversed, so this says all that
    the traversal does.

    Two traversals in a row are one with the composition, if the first of them
    succeeds. Else the second one might have failed earlier in the tree.
-/

namespace EntitySql

/-! ## Trees of one form -/

/-- The trees have the same groups and texts, and their predicates are related in pairs. -/
inductive Condition.ReplacedBy (R : Predicate → Predicate → Prop) :
    Condition → Condition → Prop where
  | predicate {p p' : Predicate} (h : R p p') : ReplacedBy R (.predicate p) (.predicate p')
  | raw (sql : String) : ReplacedBy R (.raw sql) (.raw sql)
  | group (connective : Connective) {members members' : List Condition}
    (h : List.Forall₂ (ReplacedBy R) members members') :
    ReplacedBy R (.group connective members) (.group connective members')

def ConditionGroup.ReplacedBy (R : Predicate → Predicate → Prop) (g g' : ConditionGroup) : Prop :=
  g.toCondition.ReplacedBy R g'.toCondition

namespace Condition

variable {f : Predicate → Except SqlError Predicate}

/-! ## What a traversal gives -/

theorem mapMembers_of_forall₂ {members members' : List Condition}
    (h : List.Forall₂ (fun m m' => m.mapPredicates f = .ok m') members members') :
    mapMembers f members = .ok members' := by
  induction h with
  | nil => rfl
  | cons hm _ ih =>
    rw [mapMembers, hm, ih]
    rfl

/-- Members are traversed one by one, and all of them. -/
theorem mapMembers_eq_ok_iff {members members' : List Condition} :
    mapMembers f members = .ok members' ↔
      List.Forall₂ (fun m m' => m.mapPredicates f = .ok m') members members' :=
  ⟨forall₂_of_mapMembers, mapMembers_of_forall₂⟩

/-- A traversal gives the tree in which each predicate is replaced, and no other one. -/
theorem mapPredicates_eq_ok_iff {c c' : Condition} :
    c.mapPredicates f = .ok c' ↔ c.ReplacedBy (fun p p' => f p = .ok p') c' := by
  induction c using induct generalizing c' with
  | predicate p =>
    rw [mapPredicates, Outcome.map_eq_ok_iff]
    constructor
    · rintro ⟨p', hp, rfl⟩
      exact .predicate hp
    · intro h
      cases h with
      | predicate hp => exact ⟨_, hp, rfl⟩
  | raw sql =>
    constructor
    · intro h
      obtain rfl := Except.ok.inj h
      exact .raw sql
    · intro h
      cases h
      rfl
  | group connective members ih =>
    -- for the members the two ways to relate trees are the same
    have hmembers {members' : List Condition} :
        mapMembers f members = .ok members' ↔
          List.Forall₂ (ReplacedBy fun p p' => f p = .ok p') members members' := by
      rw [mapMembers_eq_ok_iff]
      exact ⟨forall₂_imp_of_mem fun m hm m' => (ih m hm).1,
        forall₂_imp_of_mem fun m hm m' => (ih m hm).2⟩
    rw [mapPredicates, Outcome.map_eq_ok_iff]
    constructor
    · rintro ⟨members', h, rfl⟩
      exact .group connective (hmembers.1 h)
    · intro h
      cases h with
      | group _ h => exact ⟨_, hmembers.2 h, rfl⟩

/-! ## Two traversals in a row -/

variable (f' : Predicate → Except SqlError Predicate)

/-- Members that have been traversed, if each of them can be traversed with both at once. -/
theorem mapMembers_mapMembers {members members' : List Condition}
    (h : mapMembers f members = .ok members')
    (ih : ∀ m ∈ members, ∀ m', m.mapPredicates f = .ok m' →
      m'.mapPredicates f' = m.mapPredicates fun p => f p >>= f') :
    mapMembers f' members' = mapMembers (fun p => f p >>= f') members := by
  have hcomposed := forall₂_imp_of_mem ih (forall₂_of_mapMembers h)
  clear h ih
  induction hcomposed with
  | nil => rfl
  | cons hm _ ihRest => rw [mapMembers, mapMembers, hm, ihRest]

/-- Traversing what a first traversal has given is traversing with both at once. -/
theorem mapPredicates_mapPredicates {c c' : Condition} (h : c.mapPredicates f = .ok c') :
    c'.mapPredicates f' = c.mapPredicates fun p => f p >>= f' := by
  induction c using induct generalizing c' with
  | predicate p =>
    obtain ⟨p', hp, rfl⟩ := Outcome.map_eq_ok_iff.1 h
    rw [mapPredicates, mapPredicates, hp]
    rfl
  | raw sql =>
    obtain rfl := Except.ok.inj h
    rfl
  | group connective members ih =>
    -- the first replacement has succeeded on all members, so only the second one can fail
    obtain ⟨members', hmembers, rfl⟩ := Outcome.map_eq_ok_iff.1 h
    rw [mapPredicates, mapPredicates, mapMembers_mapMembers f' hmembers fun m hm m' => ih m hm]

end Condition

/-! ## Traversals of groups -/

namespace ConditionGroup

variable {f : Predicate → Except SqlError Predicate} {g g' : ConditionGroup}

/-- A group is traversed as the tree that it is. -/
theorem mapPredicates_toCondition :
    g.toCondition.mapPredicates f = .ok g'.toCondition ↔ g.mapPredicates f = .ok g' := by
  obtain ⟨connective, members⟩ := g
  obtain ⟨connective', members'⟩ := g'
  show (Condition.mapMembers f members).map (Condition.group connective) =
      .ok (.group connective' members') ↔
    (Condition.mapMembers f members).map (ConditionGroup.mk connective) =
      .ok ⟨connective', members'⟩
  rw [Outcome.map_eq_ok_iff, Outcome.map_eq_ok_iff]
  simp only [Condition.group.injEq, ConditionGroup.mk.injEq]

theorem mapPredicates_eq_ok_iff :
    g.mapPredicates f = .ok g' ↔ g.ReplacedBy (fun p p' => f p = .ok p') g' := by
  rw [← mapPredicates_toCondition]
  exact Condition.mapPredicates_eq_ok_iff

theorem mapPredicates_eq_error_iff {e : SqlError} :
    g.mapPredicates f = .error e ↔ Outcome.FirstError f g.predicates e := by
  rw [← Outcome.mapM_eq_error_iff, ← predicates_mapPredicates, Outcome.map_eq_error_iff]

/-- Traversing what a first traversal has given is traversing with both at once. -/
theorem mapPredicates_mapPredicates (h : g.mapPredicates f = .ok g')
    (f' : Predicate → Except SqlError Predicate) :
    g'.mapPredicates f' = g.mapPredicates fun p => f p >>= f' := by
  obtain ⟨members', hmembers, rfl⟩ := Outcome.map_eq_ok_iff.1 h
  unfold mapPredicates
  rw [Condition.mapMembers_mapMembers f' hmembers fun m _ m' =>
    Condition.mapPredicates_mapPredicates f']

/-- A traversal fails if and only if a predicate cannot be replaced, and on the error of the first
    such predicate, depth first. Otherwise it gives the tree of the same groups, connectives and
    texts in which each predicate is replaced: its predicates are the replacements, in order, and
    it is empty if and only if the old tree is. Traversing that tree again is traversing the old
    one with both replacements, one after the other. -/
theorem mapPredicates_iff_replacedBy (f : Predicate → Except SqlError Predicate)
    (g : ConditionGroup) :
    ((∃ e, g.mapPredicates f = .error e) ↔ ∃ p ∈ g.predicates, ∃ e, f p = .error e) ∧
    (∀ e, g.mapPredicates f = .error e ↔ Outcome.FirstError f g.predicates e) ∧
    (∀ g', g.mapPredicates f = .ok g' ↔ g.ReplacedBy (fun p p' => f p = .ok p') g') ∧
    ∀ g', g.mapPredicates f = .ok g' →
      List.Forall₂ (fun p p' => f p = .ok p') g.predicates g'.predicates ∧
      g'.isEmpty = g.isEmpty ∧
      ∀ f', g'.mapPredicates f' = g.mapPredicates fun p => f p >>= f' := by
  refine ⟨?_, fun e => mapPredicates_eq_error_iff, fun g' => mapPredicates_eq_ok_iff, ?_⟩
  -- it fails if some predicate does, since then one of them is the first
  · rw [← Outcome.exists_firstError_iff]
    exact exists_congr fun e => mapPredicates_eq_error_iff
  · intro g' h
    exact ⟨Outcome.mapM_eq_ok_iff.1 (mapM_predicates h),
      (meansThrough_of_mapPredicates h).isEmpty, mapPredicates_mapPredicates h⟩

/-- Keys are resolved in a tree with a text and an empty group. In the new tree no key can be
    resolved, and neither can two in the last tree, of which the one that comes first is
    reported. -/
theorem mapPredicates_iff_replacedBy_resolved :
    let f := resolvePredicate "users" .empty
    let name (key : String) : Condition := .predicate (.ofValue key "=" (.string "Ada"))
    let age (key : String) : Condition := .predicate (.ofValue key ">" (.int 3))
    let tree (a b : Condition) : ConditionGroup :=
      ⟨.or, [.group .and [a, .raw "not deleted"], .group .and [], b]⟩
    let g := tree (name "name") (age "age")
    let g' := tree (name "users.name") (age "users.age")
    let h := tree (name "home.name") (age "posts.age")
    g.mapPredicates f = .ok g' ∧ g.ReplacedBy (fun p p' => f p = .ok p') g' ∧
      g'.isEmpty = g.isEmpty ∧
      g.mapPredicates (fun p => f p >>= f) = .error (.pathNotMapped "users") ∧
      h.mapPredicates f = .error (.pathNotMapped "home") := by
  intro f name age tree g g' h
  have hg : g.mapPredicates f = .ok g' := by decide +kernel
  -- resolving twice takes the table for a relation
  have hg' : g'.mapPredicates f = .error (.pathNotMapped "users") := by decide +kernel
  obtain ⟨-, -, hok, hresult⟩ := mapPredicates_iff_replacedBy f g
  obtain ⟨-, hempty, hcomposed⟩ := hresult g' hg
  obtain ⟨-, herror, -, -⟩ := mapPredicates_iff_replacedBy f h
  refine ⟨hg, (hok g').1 hg, hempty, (hcomposed f).symm.trans hg', (herror _).2 ?_⟩
  refine ⟨[], .ofValue "home.name" "=" (.string "Ada"), [.ofValue "posts.age" ">" (.int 3)], rfl,
    ?_, by decide +kernel⟩
  intro p hp
  exact absurd hp List.not_mem_nil

end ConditionGroup

end EntitySql
