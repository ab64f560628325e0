import EntitySql.Proofs.Condition.Meaning
import EntitySql.Query
import Mathlib.Logic.Relation

/-! # Empty members

    A condition without atoms can be put into any group of a tree, at any place,
    and what is written stays the same. Separators stand only between members
    that are written, and only these count when it is decided whether a group
    needs parentheses, so nothing depends on a member that is not written.

    One such insertion changes neither whether a condition is empty nor its
    tokens (`Inserted.writtenAlike`). So any number of them do not either, and
    all that is written of conditions is written from these two.
-/

namespace EntitySql

/-! ## Insertions -/

namespace Condition

/-- The second condition is the first one with one more member in one of its groups, at whatever
    depth. The new member has no atoms. -/
inductive Inserted : Condition → Condition → Prop where
  | here (c : Connective) (before after : List Condition) {m : Condition} (h : m.atoms = []) :
    Inserted (.group c (before ++ after)) (.group c (before ++ m :: after))
  | within (c : Connective) (before after : List Condition) {m m' : Condition}
    (h : Inserted m m') :
    Inserted (.group c (before ++ m :: after)) (.group c (before ++ m' :: after))

/-- The second condition is the first one after any number of insertions. -/
def Padded : Condition → Condition → Prop := Relation.ReflTransGen Inserted

end Condition

def ConditionGroup.Padded (g h : ConditionGroup) : Prop := g.toCondition.Padded h.toCondition

/-- The second join differs from the first one only by insertions into its conditions. -/
inductive Join.Padded : Join → Join → Prop where
  | of (j : Join) {conditions : ConditionGroup} (h : j.conditions.Padded conditions) :
    Padded j { j with conditions := conditions }

/-- The second query differs from the first one only by insertions into conditions, its own and
    those of its joins. -/
inductive Query.Padded : Query → Query → Prop where
  | of (q : Query) {conditions havings : ConditionGroup} {joins : List Join}
    (hconditions : q.conditions.Padded conditions) (hhavings : q.havings.Padded havings)
    (hjoins : List.Forall₂ Join.Padded q.joins joins) :
    Padded q { q with conditions := conditions, havings := havings, joins := joins }

/-! ## Conditions -/

namespace Condition

/-- The conditions are written alike in every group. -/
structure WrittenAlike (c d : Condition) : Prop where
  isEmpty : d.isEmpty = c.isEmpty
  tokensIn : ∀ outer, d.tokensIn outer = c.tokensIn outer

theorem written_append (ms ns : List Condition) : written (ms ++ ns) = written ms ++ written ns :=
  List.filter_append ..

/-- What is written of a group depends on the tokens of its written members. -/
theorem writtenAlike_group {c : Connective} {ms ns : List Condition}
    (h : (written ns).map (tokensIn c) = (written ms).map (tokensIn c)) :
    WrittenAlike (group c ms) (group c ns) := by
  constructor
  · have hempty : (written ns).isEmpty = (written ms).isEmpty := by
      simpa using congrArg List.isEmpty h
    rw [isEmpty_group, isEmpty_group, hempty]
  · intro outer
    have hlength : (written ns).length = (written ms).length := by
      simpa using congrArg List.length h
    rw [tokensIn_group, tokensIn_group, h, hlength]

/-- One insertion makes no difference to what is written. -/
theorem Inserted.writtenAlike {c d : Condition} (h : c.Inserted d) : c.WrittenAlike d := by
  induction h with
  | here c before after hm =>
    apply writtenAlike_group
    rw [written_append, written_append, written_cons, if_pos (atoms_eq_nil_iff.1 hm)]
  | within c before after _ ih =>
    apply writtenAlike_group
    rw [written_append, written_append, written_cons, written_cons, ih.isEmpty]
    -- the member is written before and after the insertion or neither time
    split
    · rfl
    · simp only [List.map_append, List.map_cons, ih.tokensIn]

/-- Nor do any number of them. -/
theorem Padded.writtenAlike {c d : Condition} (h : c.Padded d) : c.WrittenAlike d := by
  induction h with
  | refl => exact ⟨rfl, fun _ => rfl⟩
  | tail _ hlast ih =>
    have hstep := hlast.writtenAlike
    exact ⟨hstep.isEmpty.trans ih.isEmpty, fun outer =>
      (hstep.tokensIn outer).trans (ih.tokensIn outer)⟩

/-- A group stays a group with its connective. -/
theorem Padded.exists_members {c : Connective} {ms : List Condition} {d : Condition}
    (h : (group c ms).Padded d) : ∃ ns, d = group c ns := by
  induction h with
  | refl => exact ⟨ms, rfl⟩
  | tail _ hlast ih =>
    obtain ⟨ns, rfl⟩ := ih
    cases hlast with
    | here => exact ⟨_, rfl⟩
    | within => exact ⟨_, rfl⟩

end Condition

/-! ## Groups, joins and queries -/

namespace ConditionGroup.Padded

variable {g h : ConditionGroup}

theorem isEmpty (hgh : g.Padded h) : h.isEmpty = g.isEmpty :=
  (Condition.Padded.writtenAlike hgh).isEmpty

theorem connective (hgh : g.Padded h) : h.connective = g.connective := by
  obtain ⟨ns, hns⟩ := Condition.Padded.exists_members hgh
  exact (Condition.group.inj hns).1

theorem rendering (hgh : g.Padded h) : h.rendering = g.rendering := by
  have htokens : h.tokens = g.tokens := by
    rw [← tokensIn_toCondition, ← tokensIn_toCondition, hgh.connective]
    exact (Condition.Padded.writtenAlike hgh).tokensIn g.connective
  unfold ConditionGroup.rendering
  rw [htokens]

/-- A line for conditions is the same, or absent from both statements. -/
theorem conditionLine (hgh : g.Padded h) (keyword : String) :
    Query.conditionLine keyword h = Query.conditionLine keyword g := by
  unfold Query.conditionLine
  rw [hgh.isEmpty, hgh.rendering]

end ConditionGroup.Padded

theorem Join.Padded.rendering {j k : Join} (h : j.Padded k) : k.rendering = j.rendering := by
  cases h with
  | of h =>
    unfold Join.rendering Join.aliasRendering
    dsimp only
    rw [h.isEmpty, h.rendering]

theorem map_rendering_of_padded {js ks : List Join} (h : List.Forall₂ Join.Padded js ks) :
    ks.map Join.rendering = js.map Join.rendering := by
  induction h with
  | nil => rfl
  | cons hj _ ih => rw [List.map_cons, List.map_cons, hj.rendering, ih]

/-- A query is written from its groups line by line, whatever its operation. -/
theorem Query.Padded.rendering {q r : Query} (h : q.Padded r) : r.rendering = q.rendering := by
  cases h with
  | @of conditions havings joins hconditions hhavings hjoins =>
    have hmap := map_rendering_of_padded hjoins
    -- the joins are as many as before
    have hempty : joins.isEmpty = q.joins.isEmpty := by
      simpa using congrArg List.isEmpty hmap
    unfold Query.rendering
    dsimp only
    cases q.operation with
    | select =>
      unfold renderSelect selectLines joinsRendering
      dsimp only
      rw [hempty, hmap, hconditions.conditionLine, hhavings.conditionLine]
    | insert => rfl
    | update =>
      unfold renderUpdate
      dsimp only
      rw [hconditions.conditionLine]
    | delete =>
      unfold renderDelete
      dsimp only
      rw [hconditions.conditionLine]

/-! ## Statements -/

/-- Insertions of conditions without atoms, at any places and depths and however many, do not
    change whether a group is empty. Under every dialect they change neither the statement of a
    group, a join or a query, its parameters included, nor the error on which it fails. -/
theorem statement_of_padded (d : Dialect) :
    (∀ g h : ConditionGroup, g.Padded h →
      h.isEmpty = g.isEmpty ∧ h.rendering.statement d = g.rendering.statement d) ∧
    (∀ j k : Join, j.Padded k → k.rendering.statement d = j.rendering.statement d) ∧
    ∀ q r : Query, q.Padded r → r.rendering.statement d = q.rendering.statement d := by
  refine ⟨fun g h hgh => ⟨hgh.isEmpty, ?_⟩, fun j k hjk => ?_, fun q r hqr => ?_⟩
  · rw [hgh.rendering]
  · rw [hjk.rendering]
  · rw [hqr.rendering]

/-- Three insertions into a group: before its first member, between the alternatives of its second
    one, and at the end, where a group is put in that holds a group in turn. The join and the
    conditions on groups are empty before and after. -/
theorem statement_of_padded_query :
    let x : Condition := .predicate (.ofValue "x" "=" (.int 1))
    let y : Condition := .predicate (.ofValue "y" "=" (.int 2))
    let z : Condition := .predicate (.ofValue "z" "=" (.int 3))
    let blank : Condition := .raw " "
    let nested : Condition := .group .and [.group .or [blank], .group .and []]
    let g : ConditionGroup := ⟨.and, [x, .group .or [y, z]]⟩
    let h : ConditionGroup := ⟨.and, [.group .or [], x, .group .or [y, blank, z], nested]⟩
    let join (conditions : ConditionGroup) : Join := ⟨"t", none, .inner, "ON", conditions⟩
    let query (conditions havings on : ConditionGroup) : Query := { Query.select "users" with
      conditions := conditions, havings := havings, joins := [join on] }
    let sql := "SELECT *\nFROM \"users\"\nINNER JOIN \"t\"\n" ++
      "WHERE \"x\" = ? AND (\"y\" = ? OR \"z\" = ?)"
    g.Padded h ∧ h.isEmpty = false ∧
      (join .and).Padded (join ⟨.and, [nested]⟩) ∧
      (join ⟨.and, [nested]⟩).rendering.statement .postgres = .ok ⟨"INNER JOIN \"t\"", []⟩ ∧
      (query g .and .and).Padded (query h ⟨.and, [blank]⟩ ⟨.and, [nested]⟩) ∧
      (query h ⟨.and, [blank]⟩ ⟨.and, [nested]⟩).rendering.statement .postgres =
        .ok ⟨sql, [.int 1, .int 2, .int 3]⟩ := by
  intro x y z blank nested g h join query sql
  have hblank : blank.atoms = [] := by decide
  have hnested : nested.atoms = [] := by decide
  -- a member without atoms in a group that is otherwise empty
  have honly {m : Condition} (hm : m.atoms = []) : ConditionGroup.and.Padded ⟨.and, [m]⟩ :=
    .single (.here .and [] [] hm)
  -- three insertions, one of them in the inner group
  have hgh : g.Padded h := by
    refine .tail (.tail (.single (.here .and [] [x, .group .or [y, z]] ?_))
      (.within .and [.group .or [], x] [] (.here .or [y] [z] hblank)))
      (.here .and [.group .or [], x, .group .or [y, blank, z]] [] hnested)
    decide
  have hjoin : (join .and).Padded (join ⟨.and, [nested]⟩) := .of _ (honly hnested)
  have hquery : (query g .and .and).Padded (query h ⟨.and, [blank]⟩ ⟨.and, [nested]⟩) :=
    .of _ hgh (honly hblank) (.cons hjoin .nil)
  obtain ⟨hgroups, hjoins, hqueries⟩ := statement_of_padded .postgres
  refine ⟨hgh, (hgroups g h hgh).1.trans ?_, hjoin, (hjoins _ _ hjoin).trans ?_, hquery,
    (hqueries _ _ hquery).trans ?_⟩
  · decide
  · decide +kernel
  · decide +kernel

end EntitySql
