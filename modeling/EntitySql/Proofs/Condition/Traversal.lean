import EntitySql.Proofs.Condition.Meaning
import EntitySql.Proofs.Outcome

/-! # Traversal of condition groups

    The predicates of a tree whose predicates have been replaced are the
    replacements of its predicates, in order; and the first error among these
    is that of the traversal.

    The new tree means what the old one means if each predicate is given the
    truth value of its replacement.
-/

namespace EntitySql

/-- Lists that are related element by element are so in another way too, if the one follows from
    the other for the elements of the first list. -/
theorem forall₂_imp_of_mem {α β : Type} {R S : α → β → Prop} {as : List α} {bs : List β}
    (h : ∀ a ∈ as, ∀ b, R a b → S a b) (hR : List.Forall₂ R as bs) : List.Forall₂ S as bs := by
  induction hR with
  | nil => exact .nil
  | cons hab _ ih =>
    obtain ⟨hfirst, hrest⟩ := List.forall_mem_cons.1 h
    exact .cons (hfirst _ hab) (ih hrest)

namespace Condition

variable (f : Predicate → Except SqlError Predicate)

/-- The predicates of several conditions, if each of them is traversed in order. -/
theorem predicatesOf_mapMembers {cs : List Condition}
    (h : ∀ c ∈ cs, (c.mapPredicates f).map predicates = c.predicates.mapM f) :
    (mapMembers f cs).map predicatesOf = (predicatesOf cs).mapM f := by
  induction cs with
  | nil => rfl
  | cons c cs ih =>
    obtain ⟨hc, hcs⟩ := List.forall_mem_cons.1 h
    rw [predicatesOf, List.mapM_append, ← hc, ← ih hcs, mapMembers]
    -- the first error, in the member or in those after it, ends both
    cases c.mapPredicates f with
    | error e => rfl
    | ok c' =>
      cases mapMembers f cs with
      | error e => rfl
      | ok cs' => rfl

/-- Predicates are replaced in order, depth first, up to the first error. -/
theorem predicates_mapPredicates (c : Condition) :
    (c.mapPredicates f).map predicates = c.predicates.mapM f := by
  induction c using induct with
  | predicate p =>
    rw [mapPredicates, predicates, List.mapM_cons, List.mapM_nil]
    cases f p <;> rfl
  | raw sql => rfl
  | group connective members ih =>
    rw [mapPredicates, predicates, ← predicatesOf_mapMembers f ih]
    cases mapMembers f members <;> rfl

end Condition

/-! ## Meaning of a traversed tree -/

/-- A valuation of the replacements, as one of the predicates that are replaced. -/
def Valuation.through (f : Predicate → Except SqlError Predicate) (v : Valuation) : Valuation
  | .predicate p =>
    match f p with
    | .ok p' => v (.predicate p')
    | .error _ => false
  | .raw sql => v (.raw sql)

namespace Condition

variable {f : Predicate → Except SqlError Predicate}

theorem through_of_eq_ok {p p' : Predicate} (v : Valuation) (h : f p = .ok p') :
    v.through f (.predicate p) = v (.predicate p') := by
  show (match f p with | .ok p' => v (.predicate p') | .error _ => false) = _
  rw [h]

/-- The new condition is written if and only if the old one is, and it has the same value. -/
structure MeansThrough (f : Predicate → Except SqlError Predicate) (c c' : Condition) : Prop where
  isEmpty : c'.isEmpty = c.isEmpty
  holds : ∀ v : Valuation, c'.holds v = c.holds (v.through f)

/-- Members that mean the same make groups that mean the same. -/
theorem meansThrough_group {members members' : List Condition}
    (h : List.Forall₂ (MeansThrough f) members members') (connective : Connective) :
    MeansThrough f (group connective members) (group connective members') := by
  -- both connectives at once, since they go through the members in the same way
  have hmembers : allEmpty members' = allEmpty members ∧ ∀ v : Valuation,
      allHold v members' = allHold (v.through f) members ∧
        anyHolds v members' = anyHolds (v.through f) members := by
    induction h with
    | nil => exact ⟨rfl, fun v => ⟨rfl, rfl⟩⟩
    | cons hm _ ih =>
      obtain ⟨hempty, hholds⟩ := ih
      refine ⟨by rw [allEmpty, allEmpty, hm.isEmpty, hempty], fun v => ?_⟩
      obtain ⟨hall, hany⟩ := hholds v
      constructor
      · rw [allHold, allHold, hm.isEmpty, hm.holds, hall]
      · rw [anyHolds, anyHolds, hm.isEmpty, hm.holds, hany]
  obtain ⟨hempty, hholds⟩ := hmembers
  cases connective with
  | and => exact ⟨hempty, fun v => (hholds v).1⟩
  | or => exact ⟨hempty, fun v => (hholds v).2⟩

/-- Members are traversed one by one. -/
theorem forall₂_of_mapMembers {members members' : List Condition}
    (h : mapMembers f members = .ok members') :
    List.Forall₂ (fun m m' => m.mapPredicates f = .ok m') members members' := by
  induction members generalizing members' with
  | nil =>
    obtain rfl := Except.ok.inj h
    exact .nil
  | cons m members ih =>
    obtain ⟨m', hm, h⟩ := Outcome.bind_eq_ok_iff.1 h
    obtain ⟨rest, hrest, h⟩ := Outcome.bind_eq_ok_iff.1 h
    obtain rfl := Outcome.pure_eq_ok_iff.1 h
    exact .cons hm (ih hrest)

/-- A traversed condition means what the condition means. -/
theorem meansThrough_of_mapPredicates {c c' : Condition} (h : c.mapPredicates f = .ok c') :
    MeansThrough f c c' := by
  induction c using induct generalizing c' with
  | predicate p =>
    obtain ⟨p', hp, rfl⟩ := Outcome.map_eq_ok_iff.1 h
    exact ⟨rfl, fun v => (through_of_eq_ok v hp).symm⟩
  | raw sql =>
    obtain rfl := Except.ok.inj h
    exact ⟨rfl, fun v => rfl⟩
  | group connective members ih =>
    obtain ⟨members', hmembers, rfl⟩ := Outcome.map_eq_ok_iff.1 h
    -- replacing members in turn relates them in pairs
    apply meansThrough_group
    exact forall₂_imp_of_mem (fun m hm m' => ih m hm) (forall₂_of_mapMembers hmembers)

end Condition

namespace ConditionGroup

theorem predicates_mapPredicates (f : Predicate → Except SqlError Predicate)
    (g : ConditionGroup) : (g.mapPredicates f).map predicates = g.predicates.mapM f := by
  have hmembers : (Condition.mapMembers f g.members).map Condition.predicatesOf =
      (Condition.predicatesOf g.members).mapM f :=
    Condition.predicatesOf_mapMembers f fun c _ => Condition.predicates_mapPredicates f c
  rw [predicates, ← hmembers, mapPredicates]
  cases Condition.mapMembers f g.members <;> rfl

/-- The predicates of a traversed group are the replacements of those of the group. -/
theorem mapM_predicates {f : Predicate → Except SqlError Predicate} {g g' : ConditionGroup}
    (h : g.mapPredicates f = .ok g') : g.predicates.mapM f = .ok g'.predicates := by
  rw [← predicates_mapPredicates, h]
  rfl

/-- So each of them comes from a predicate of the group. -/
theorem exists_of_mem_mapPredicates {f : Predicate → Except SqlError Predicate}
    {g g' : ConditionGroup} (h : g.mapPredicates f = .ok g') {p' : Predicate}
    (hp' : p' ∈ g'.predicates) : ∃ p ∈ g.predicates, f p = .ok p' :=
  Outcome.exists_of_mem_mapM (mapM_predicates h) hp'

/-- A traversed group means what the group means. -/
theorem meansThrough_of_mapPredicates {f : Predicate → Except SqlError Predicate}
    {g g' : ConditionGroup} (h : g.mapPredicates f = .ok g') :
    g.toCondition.MeansThrough f g'.toCondition := by
  obtain ⟨members, hmembers, rfl⟩ := Outcome.map_eq_ok_iff.1 h
  apply Condition.meansThrough_of_mapPredicates
  exact Outcome.map_eq_ok_iff.2 ⟨members, hmembers, rfl⟩

end ConditionGroup

end EntitySql
