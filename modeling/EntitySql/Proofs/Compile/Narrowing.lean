import EntitySql.Proofs.Compile.Plan
import EntitySql.Proofs.Condition.Traversal

/-! # Narrowing of existing conditions

    A condition tree *admits* a valuation if the tree is true, or if nothing of
    it is written, since then it demands nothing.

    The conditions of an entity query are put into those of an existing query so
    that the result admits what both of them do. If one of the two trees is not
    written the result is the other one. Else the new tree becomes a member of a
    conjunction: of the existing tree if that is one, and otherwise of a new
    group with the existing tree as its first member. So alternatives are never
    given another one, and no row is selected that the existing query excluded.
-/

namespace EntitySql

namespace ConditionGroup

/-! ## Admitted valuations -/

/-- Whether the tree is true, where a tree of which nothing is written counts as true. -/
def admits (v : Valuation) (g : ConditionGroup) : Bool := g.isEmpty || g.holds v

section admits

variable {g : ConditionGroup} {v : Valuation}

theorem admits_of_isEmpty (h : g.isEmpty = true) : g.admits v = true := by
  rw [admits, h]
  rfl

theorem admits_of_written (h : g.isEmpty = false) : g.admits v = g.holds v := by
  rw [admits, h]
  rfl

/-- A conjunction admits what all of its written members do. -/
theorem admits_and (v : Valuation) (members : List Condition) :
    (ConditionGroup.mk .and members).admits v =
      (Condition.written members).all (Condition.holds v) := by
  have hholds : (ConditionGroup.mk .and members).holds v =
      (Condition.written members).all (Condition.holds v) := Condition.holds_and v members
  have hempty : (ConditionGroup.mk .and members).isEmpty = (Condition.written members).isEmpty :=
    Condition.isEmpty_group .and members
  rw [admits, hholds, hempty]
  -- all of no members hold
  cases Condition.written members <;> rfl

theorem isEmpty_push (g : ConditionGroup) (c : Condition) :
    (g.push c).isEmpty = (g.isEmpty && c.isEmpty) := by
  show Condition.allEmpty (g.members ++ [c]) = (Condition.allEmpty g.members && c.isEmpty)
  simp [Condition.allEmpty_eq_all]

theorem atoms_push (g : ConditionGroup) (c : Condition) :
    (g.push c).atoms = g.atoms ++ c.atoms := by
  show Condition.atomsOf (g.members ++ [c]) = Condition.atomsOf g.members ++ c.atoms
  simp [Condition.atomsOf_eq_flatMap]

/-- Of alternatives, one written member has to hold. -/
theorem admits_or_of_written {members : List Condition}
    (h : (ConditionGroup.mk .or members).isEmpty = false) :
    (ConditionGroup.mk .or members).admits v =
      (Condition.written members).any (Condition.holds v) := by
  rw [admits_of_written h]
  exact Condition.holds_or v members

/-- One more member of a conjunction has to hold too. -/
theorem admits_push (hg : g.connective = .and) (new : ConditionGroup) :
    (g.push new.toCondition).admits v = (g.admits v && new.admits v) := by
  obtain ⟨connective, members⟩ := g
  obtain rfl : connective = .and := hg
  have hnew : (Condition.written [new.toCondition]).all (Condition.holds v) = new.admits v := by
    rw [Condition.written_cons, isEmpty_toCondition]
    -- an empty group is not written and admits everything
    by_cases hempty : new.isEmpty = true
    · rw [if_pos hempty, admits_of_isEmpty hempty]
      rfl
    · rw [if_neg hempty, admits_of_written (by simpa using hempty)]
      exact Bool.and_true _
  show (ConditionGroup.mk .and (members ++ [new.toCondition])).admits v = _
  have happend : Condition.written (members ++ [new.toCondition]) =
      Condition.written members ++ Condition.written [new.toCondition] := List.filter_append _ _
  rw [admits_and, admits_and, happend, List.all_append, hnew]

theorem isEmpty_nestedIn (g : ConditionGroup) (c : Connective) :
    (g.nestedIn c).isEmpty = g.isEmpty := Bool.and_true _

theorem atoms_nestedIn (g : ConditionGroup) (c : Connective) :
    (g.nestedIn c).atoms = g.atoms := List.append_nil _

/-- A group that is the only member of a conjunction gives it its meaning. -/
theorem admits_nestedIn_and (g : ConditionGroup) (v : Valuation) :
    (g.nestedIn .and).admits v = g.admits v := by
  have hpush : g.nestedIn .and = and.push g.toCondition := rfl
  have hnone : and.admits v = true := admits_of_isEmpty rfl
  rw [hpush, admits_push rfl, hnone, Bool.true_and]

end admits

end ConditionGroup

/-! ## Narrowed conditions -/

namespace Plan

/-- A tree of which nothing is written leaves the other one as it is. Else the new tree becomes a
    member of a conjunction that is the old tree, or has the old tree as its only member. -/
theorem narrow_cases (old new : ConditionGroup) :
    (new.isEmpty = true ∧ narrow old new = old) ∨ (old.isEmpty = true ∧ narrow old new = new) ∨
      ∃ base : ConditionGroup, base.connective = .and ∧
        (base = old ∨ base = old.nestedIn .and) ∧
        narrow old new = base.push new.toCondition := by
  by_cases hnew : new.isEmpty = true
  · have hkeep : narrow old new = old := if_pos hnew
    exact Or.inl ⟨hnew, hkeep⟩
  · by_cases hold : old.isEmpty = true
    · have htake : narrow old new = new := (if_neg hnew).trans (if_pos hold)
      exact Or.inr (Or.inl ⟨hold, htake⟩)
    · refine Or.inr (Or.inr ?_)
      unfold narrow
      rw [if_neg hnew, if_neg hold]
      -- alternatives go into a new group as a whole
      cases hconnective : old.connective with
      | and => exact ⟨old, hconnective, Or.inl rfl, rfl⟩
      | or => exact ⟨old.nestedIn .and, rfl, Or.inr rfl, rfl⟩

/-- Nothing is written of the result if nothing is written of both trees. -/
theorem isEmpty_narrow (old new : ConditionGroup) :
    (narrow old new).isEmpty = (old.isEmpty && new.isEmpty) := by
  obtain ⟨hnew, hkeep⟩ | ⟨hold, htake⟩ | ⟨base, -, hsame, hpush⟩ := narrow_cases old new
  · rw [hkeep, hnew, Bool.and_true]
  · rw [htake, hold, Bool.true_and]
  · have hbase : base.isEmpty = old.isEmpty := by
      rcases hsame with rfl | rfl
      · rfl
      · exact old.isEmpty_nestedIn .and
    rw [hpush, ConditionGroup.isEmpty_push, ConditionGroup.isEmpty_toCondition, hbase]

/-- The result has the atoms of the old tree and then those of the new one. -/
theorem atoms_narrow (old new : ConditionGroup) :
    (narrow old new).atoms = old.atoms ++ new.atoms := by
  -- a side without atoms may be left out, in whichever way the conditions are put together
  obtain ⟨hnew, hkeep⟩ | ⟨hold, htake⟩ | ⟨base, -, hsame, hpush⟩ := narrow_cases old new
  · have hnone : new.atoms = [] := Condition.atoms_eq_nil_iff.2 hnew
    rw [hkeep, hnone, List.append_nil]
  · have hnone : old.atoms = [] := Condition.atoms_eq_nil_iff.2 hold
    rw [htake, hnone, List.nil_append]
  · have hbase : base.atoms = old.atoms := by
      rcases hsame with rfl | rfl
      · rfl
      · exact old.atoms_nestedIn .and
    rw [hpush, ConditionGroup.atoms_push, hbase]
    rfl

/-- The result admits what both trees admit. -/
theorem admits_narrow (v : Valuation) (old new : ConditionGroup) :
    (narrow old new).admits v = (old.admits v && new.admits v) := by
  obtain ⟨hnew, hkeep⟩ | ⟨hold, htake⟩ | ⟨base, hand, hsame, hpush⟩ := narrow_cases old new
  · rw [hkeep, ConditionGroup.admits_of_isEmpty hnew, Bool.and_true]
  · rw [htake, ConditionGroup.admits_of_isEmpty hold, Bool.true_and]
  · have hbase : base.admits v = old.admits v := by
      rcases hsame with rfl | rfl
      · rfl
      · exact old.admits_nestedIn_and v
    rw [hpush, ConditionGroup.admits_push hand, hbase]

end Plan

/-! ## Conditions of a compiled query -/

/-- The conditions of an existing query that an entity query is compiled onto are narrowed by those
    of the entity query: the result admits exactly what the existing conditions and the resolved
    ones admit. The resolved conditions mean what the entity query's own ones mean if each
    predicate has the truth value of its resolution, and no atom is lost or added. -/
theorem compile_conditions_narrow (inspector : Inspector) (q : EntityQuery) (e : Query)
    {c : Compilation} (h : compile inspector q (some e) = .ok c) :
    ∃ root own, inspector.storageName q.entity = .ok root ∧
      q.conditions.mapPredicates (resolvePredicate root c.relationMap) = .ok own ∧
      (∀ v, c.query.conditions.admits v = (e.conditions.admits v && own.admits v)) ∧
      (∀ v, own.admits v =
        q.conditions.admits (v.through (resolvePredicate root c.relationMap))) ∧
      c.query.conditions.isEmpty = (e.conditions.isEmpty && q.conditions.isEmpty) ∧
      c.query.conditions.atoms = e.conditions.atoms ++ own.atoms := by
  obtain ⟨p, hp, rfl⟩ := compile_eq_ok_iff.1 h
  obtain ⟨columns, paths, loading, joins, hmade⟩ := Plan.make_eq_ok_iff.1 hp
  have hconditions : (p.extend e).conditions = Plan.narrow e.conditions p.conditions := rfl
  -- the conditions of the plan mean what those of the query do, read through the resolution
  have hmeans := ConditionGroup.meansThrough_of_mapPredicates hmade.mapPredicates
  have hempty : p.conditions.isEmpty = q.conditions.isEmpty := hmeans.isEmpty
  refine ⟨p.table, p.conditions, hmade.storageName, hmade.mapPredicates, ?_, ?_, ?_, ?_⟩
  · intro v
    show (p.extend e).conditions.admits v = _
    rw [hconditions, Plan.admits_narrow]
  · intro v
    have hholds : p.conditions.holds v =
        q.conditions.holds (v.through (resolvePredicate p.table p.relationMap)) := hmeans.holds v
    rw [ConditionGroup.admits, ConditionGroup.admits, hempty, hholds]
  · show (p.extend e).conditions.isEmpty = _
    rw [hconditions, Plan.isEmpty_narrow, hempty]
  · show (p.extend e).conditions.atoms = _
    rw [hconditions, Plan.atoms_narrow]

/-- Alternatives on both sides, with a blank text and an empty group among the existing ones. The
    result demands one of each side. -/
theorem compile_conditions_narrow_alternatives :
    let schema : Schema := .ofList [("User", .ofTable "users")]
    let role (name : String) : Predicate := .ofValue "users.role" "=" (.string name)
    let named (key : String) : Predicate := .ofValue key "=" (.string "Ada")
    let e : Query := { Query.select "users" with conditions := ⟨.or, [.predicate (role "admin"),
      .raw "  ", .group .and [], .predicate (role "editor")]⟩ }
    let q : EntityQuery := { EntityQuery.of "User" with
      conditions := ⟨.or, [.predicate (named "name"), .raw "now() > opened"]⟩ }
    ∃ c, compile schema.inspector q (some e) = .ok c ∧
      ∀ v : Valuation, c.query.conditions.admits v =
        ((v (.predicate (role "admin")) || v (.predicate (role "editor"))) &&
          (v (.predicate (named "users.name")) || v (.raw "now() > opened"))) := by
  intro schema role named e q
  have hview : (compile schema.inspector q (some e)).map (fun c =>
      resolvePredicate "users" c.relationMap (named "name")) = .ok (.ok (named "users.name")) := by
    decide +kernel
  obtain ⟨c, hc, hnamed⟩ := Outcome.map_eq_ok_iff.1 hview
  obtain ⟨root, own, hroot, -, hadmits, hmeans, -, -⟩ :=
    compile_conditions_narrow schema.inspector q e hc
  obtain rfl : root = "users" := by
    have husers : schema.inspector.storageName "User" = .ok "users" := by decide +kernel
    exact Except.ok.inj (hroot.symm.trans husers)
  -- blank texts and empty groups say nothing, so two alternatives are left
  have hexisting (v : Valuation) : e.conditions.admits v =
      (v (.predicate (role "admin")) || v (.predicate (role "editor"))) := by
    have hwritten : Condition.written e.conditions.members =
        [.predicate (role "admin"), .predicate (role "editor")] := by decide +kernel
    have hadmitted : e.conditions.admits v =
        (Condition.written e.conditions.members).any (Condition.holds v) :=
      ConditionGroup.admits_or_of_written (by decide +kernel)
    rw [hadmitted, hwritten]
    simp [Condition.holds]
  have hasked (v : Valuation) : q.conditions.admits v =
      (v (.predicate (named "name")) || v (.raw "now() > opened")) := by
    have hwritten : Condition.written q.conditions.members = q.conditions.members := by
      decide +kernel
    have hadmitted : q.conditions.admits v =
        (Condition.written q.conditions.members).any (Condition.holds v) :=
      ConditionGroup.admits_or_of_written (by decide +kernel)
    rw [hadmitted, hwritten]
    simp [q, Condition.holds]
  refine ⟨c, hc, fun v => ?_⟩
  rw [hadmits, hmeans, hexisting, hasked, Condition.through_of_eq_ok v hnamed]
  rfl

end EntitySql
