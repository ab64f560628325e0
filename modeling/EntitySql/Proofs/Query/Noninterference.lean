import EntitySql.Proofs.Condition.Meaning
import EntitySql.Proofs.Statement.Parameters
import EntitySql.Query

/-! # Parameters do not interfere

    Two queries have the *same shape* if they differ in nothing but the values
    that are bound: list elements, assigned values, the parameters of prepared
    fragments, and the single values that predicates compare with. Of a single
    value on the right side two things may not differ: whether it is `NULL`,
    which turns a comparison into a test, and, if it is marked as a key, the
    value itself, which is written as a name.

    Queries of the same shape are rendered alike, so no other property of a
    value reaches the text of a statement or decides on an error.
-/

namespace EntitySql

/-! ## Shapes -/

/-- The operands differ at most in values; lists have the same length. -/
inductive Operand.SameShape : Operand → Operand → Prop where
  | key (name : String) : SameShape (.key name) (.key name)
  | expression {e f : Expression} (h : e.SameShape f) : SameShape (.expression e) (.expression f)
  | value (v w : Param) : SameShape (.value v) (.value w)
  | list {ps qs : List Param} (h : ps.length = qs.length) : SameShape (.list ps) (.list qs)

/-- The right sides of predicates differ at most in values. Single values are both `NULL` or both
    not, and they are equal if they are marked as keys, be it only as numbers. -/
inductive Operand.SameRight (isKey : Bool) : Operand → Operand → Prop where
  | key (name : String) : SameRight isKey (.key name) (.key name)
  | expression {e f : Expression} (h : e.SameShape f) :
    SameRight isKey (.expression e) (.expression f)
  | null : SameRight isKey (.value .null) (.value .null)
  | value {v w : Param} (hv : v.isNull = false) (hw : w.isNull = false)
    (hmarked : isKey = true → v = w ∨ v.equals w) : SameRight isKey (.value v) (.value w)
  | list {ps qs : List Param} (h : ps.length = qs.length) : SameRight isKey (.list ps) (.list qs)

/-- The predicates differ at most in values. -/
structure Predicate.SameShape (p q : Predicate) : Prop where
  left : p.left.SameShape q.left
  operator : p.operator = q.operator
  rightIsKey : p.rightIsKey = q.rightIsKey
  right : p.right.SameRight p.rightIsKey q.right

/-- The conditions are trees of the same form whose predicates differ at most in values. -/
inductive Condition.SameShape : Condition → Condition → Prop where
  | predicate {p q : Predicate} (h : p.SameShape q) : SameShape (.predicate p) (.predicate q)
  | raw (sql : String) : SameShape (.raw sql) (.raw sql)
  | group (c : Connective) {ms ns : List Condition} (h : List.Forall₂ SameShape ms ns) :
    SameShape (.group c ms) (.group c ns)

def ConditionGroup.SameShape (g h : ConditionGroup) : Prop :=
  g.toCondition.SameShape h.toCondition

/-- The joins differ at most in values of their conditions. -/
structure Join.SameShape (j k : Join) : Prop where
  table : j.table = k.table
  aliasName : j.aliasName = k.aliasName
  direction : j.direction = k.direction
  unification : j.unification = k.unification
  conditions : j.conditions.SameShape k.conditions

/-- The queries differ at most in values. -/
structure Query.SameShape (q r : Query) : Prop where
  operation : q.operation = r.operation
  table : q.table = r.table
  columns : List.Forall₂ Expression.SameShape q.columns r.columns
  values : List.Forall₂ (fun e f => e.1 = f.1 ∧ e.2.SameShape f.2) q.values.entries r.values.entries
  joins : List.Forall₂ Join.SameShape q.joins r.joins
  conditions : q.conditions.SameShape r.conditions
  groupBys : List.Forall₂ Expression.SameShape q.groupBys r.groupBys
  havings : q.havings.SameShape r.havings
  orderBys : q.orderBys = r.orderBys
  distinct : q.distinct = r.distinct
  limit : q.limit = r.limit
  offset : q.offset = r.offset

theorem isEmpty_of_forall₂ {α β : Type} {R : α → β → Prop} {as : List α} {bs : List β}
    (h : List.Forall₂ R as bs) : as.isEmpty = bs.isEmpty := by
  cases h <;> rfl

/-! ## Predicates -/

section predicates

open Rendering

theorem Operand.SameShape.leftSide {o o' : Operand} (h : o.SameShape o') :
    o.leftSide.SameShape o'.leftSide := by
  cases h with
  | key name => exact .refl _
  | expression h => exact sameShape_expression h
  | value v w => exact .refl (fail (.typeMismatch .keyOrExpressionOnLeft "value"))
  | list h => exact .refl (fail (.typeMismatch .keyOrExpressionOnLeft "list"))

theorem Operand.SameShape.assigned {o o' : Operand} (h : o.SameShape o') :
    o.assigned.SameShape o'.assigned := by
  cases h with
  | key name => exact .refl _
  | expression h => exact sameShape_expression h
  | value v w => exact sameShape_param v w
  | list h => exact .refl (fail (.typeMismatch .singleValue "list"))

theorem Expression.SameShape.startsParenthesis {e f : Expression} (h : e.SameShape f) :
    e.startsParenthesis = f.startsParenthesis := by
  cases h <;> rfl

theorem sameShape_parenthesized {r s : Rendering} (h : r.SameShape s) :
    (Predicate.parenthesized r).SameShape (Predicate.parenthesized s) :=
  ((SameShape.refl (text "(")).append h).append (.refl (text ")"))

theorem sameShape_params {ps qs : List Param} (h : ps.length = qs.length) :
    (sepBy ", " (ps.map param)).SameShape (sepBy ", " (qs.map param)) := by
  refine sameShape_sepBy_map ", " (R := fun _ _ => True) (fun p q _ => sameShape_param p q) ?_
  exact List.forall₂_iff_get.2 ⟨h, fun _ _ _ => trivial⟩

namespace Predicate

/-- A value that is not `NULL` is compared with and not tested for. -/
theorem comparison_of_value {p : Predicate} {op : Operator} {v : Param}
    (h : p.right = .value v) (hv : v.isNull = false) :
    p.comparison op = p.left.leftSide ++ text (" " ++ op.sql ++ " ") ++ p.rightSide op := by
  unfold comparison
  rw [h]
  cases v with
  | null => exact absurd hv nofun
  | _ => rfl

theorem membership_of_value {p : Predicate} {op : Operator} {v : Param}
    (h : p.right = .value v) (hv : v.isNull = false) :
    p.membership op = p.membershipHead op ++ parenthesized (param v) := by
  unfold membership
  rw [h]
  cases v with
  | null => exact absurd hv nofun
  | _ => rfl

/-- Equal values are names of the same text or no names on the same account. -/
theorem rightKey_of_equals {left left' : Operand} {op op' : Option String} {v w : Param}
    (h : v.equals w = true) :
    rightKey ⟨left, op, .value v, true⟩ = rightKey ⟨left', op', .value w, true⟩ := by
  cases v with
  | string a =>
    cases w with
    | string b =>
      obtain rfl : a = b := eq_of_beq h
      rfl
    | _ => exact absurd h nofun
  | _ => cases w <;> first | rfl | exact absurd h nofun

end Predicate

namespace Predicate.SameShape

variable {p q : Predicate}

theorem readOperator (h : p.SameShape q) : p.readOperator = q.readOperator := by
  unfold Predicate.readOperator
  rw [h.operator]

/-- A value is only looked at for a name if it is marked as a key. -/
theorem rightKey (h : p.SameShape q) : p.rightKey = q.rightKey := by
  obtain ⟨left, op, right, isKey⟩ := p
  obtain ⟨left', op', right', isKey'⟩ := q
  obtain ⟨-, -, hisKey, hright⟩ := h
  obtain rfl : isKey = isKey' := hisKey
  cases hright with
  | key name => rfl
  | expression h => cases isKey <;> rfl
  | null => rfl
  | list h => cases isKey <;> rfl
  | @value v w _ _ hmarked =>
    -- without the mark no value is a name, and with it the values are equal
    cases isKey with
    | false => cases v <;> cases w <;> rfl
    | true =>
      obtain rfl | hvw := hmarked rfl
      · rfl
      · exact rightKey_of_equals hvw

theorem rightSide (h : p.SameShape q) (op : Operator) :
    (p.rightSide op).SameShape (q.rightSide op) := by
  have hkey := h.rightKey
  obtain ⟨left, op', right, isKey⟩ := p
  obtain ⟨left', op'', right', isKey'⟩ := q
  obtain ⟨-, -, -, hright⟩ := h
  unfold Predicate.rightSide
  rw [hkey]
  -- the name that is looked up is the same one, so only values may differ
  cases Predicate.rightKey ⟨left', op'', right', isKey'⟩ with
  | error e => exact .refl (fail e)
  | ok name =>
    cases name with
    | some name => exact .refl _
    | none =>
      cases hright with
      | key name => exact .refl _
      | expression h => exact sameShape_expression h
      | null => exact sameShape_param .null .null
      | @value v w _ _ _ => exact sameShape_param v w
      | list h => exact .refl (fail (.typeMismatch (.singleValueFor op) "list"))

/-- A comparison is with `NULL` in both predicates or in neither. -/
theorem comparison (h : p.SameShape q) (op : Operator) :
    (p.comparison op).SameShape (q.comparison op) := by
  have hleft := h.left.leftSide
  have hcompared : (p.left.leftSide ++ text (" " ++ op.sql ++ " ") ++ p.rightSide op).SameShape
      (q.left.leftSide ++ text (" " ++ op.sql ++ " ") ++ q.rightSide op) :=
    (hleft.append (.refl _)).append (h.rightSide op)
  obtain ⟨left, op', right, isKey⟩ := p
  obtain ⟨left', op'', right', isKey'⟩ := q
  obtain ⟨-, -, -, hright⟩ := h
  -- a value other than NULL is compared as any other operand
  cases hright with
  | null =>
    unfold Predicate.comparison
    cases op.nullTest? with
    | none => exact hcompared
    | some test => exact hleft.append (.refl _)
  | value hv hw _ =>
    rw [comparison_of_value rfl hv, comparison_of_value rfl hw]
    exact hcompared
  | _ => exact hcompared

theorem membershipHead (h : p.SameShape q) (op : Operator) :
    (p.membershipHead op).SameShape (q.membershipHead op) :=
  h.left.leftSide.append (.refl _)

/-- Of a list only its length matters, and of a single value whether it is `NULL`. -/
theorem membership (h : p.SameShape q) (op : Operator) :
    (p.membership op).SameShape (q.membership op) := by
  have hleft := h.left.leftSide
  have hhead := h.membershipHead op
  obtain ⟨left, op', right, isKey⟩ := p
  obtain ⟨left', op'', right', isKey'⟩ := q
  obtain ⟨-, -, -, hright⟩ := h
  cases hright with
  | key name => exact .refl (fail (.typeMismatch (.listFor op) "key"))
  | null => exact hleft.append (.refl _)
  | value hv hw _ =>
    rw [membership_of_value rfl hv, membership_of_value rfl hw]
    exact hhead.append (sameShape_parenthesized (sameShape_param _ _))
  | @expression e f h =>
    have hexpression := sameShape_expression h
    unfold Predicate.membership
    dsimp only
    rw [h.startsParenthesis]
    split
    · exact hhead.append hexpression
    · exact hhead.append (sameShape_parenthesized hexpression)
  | @list ps qs h =>
    -- an empty list has a text of its own, so both lists have to be empty or neither
    cases ps with
    | nil =>
      obtain rfl := List.length_eq_zero_iff.1 h.symm
      exact .refl _
    | cons p ps =>
      cases qs with
      | nil => exact absurd h (by simp)
      | cons q qs =>
        exact hhead.append (sameShape_parenthesized (sameShape_params h))

theorem rendering (h : p.SameShape q) : p.rendering.SameShape q.rendering := by
  unfold Predicate.rendering
  -- both read the same operator, so they are of one form
  rw [h.readOperator]
  cases q.readOperator with
  | error e => exact .refl (fail e)
  | ok op =>
    cases op with
    | none => exact h.left.leftSide
    | some op =>
      dsimp only
      split
      · exact h.membership op
      · exact h.comparison op

end Predicate.SameShape

end predicates

/-! ## Conditions -/

namespace Condition

def Token.SameRendering (t u : Token) : Prop := t.rendering.SameShape u.rendering

theorem SameShape.isEmpty {c d : Condition} (h : c.SameShape d) : c.isEmpty = d.isEmpty := by
  induction c using induct generalizing d with
  | predicate p =>
    cases h
    rfl
  | raw sql =>
    cases h
    rfl
  | group c ms ih =>
    cases h with
    | @group _ _ ns hms =>
      rw [Condition.isEmpty, Condition.isEmpty]
      clear c
      -- along the members, of which `ih` knows that shape decides on emptiness
      induction hms with
      | nil => rfl
      | cons hm _ ihms =>
        obtain ⟨hfirst, hrest⟩ := List.forall_mem_cons.1 ih
        rw [allEmpty, allEmpty, hfirst hm, ihms hrest]

/-- The tokens of the members that are not empty, if those of each member are alike. -/
theorem sameRendering_memberTokens (c : Connective) {ms ns : List Condition}
    (h : List.Forall₂ SameShape ms ns)
    (ih : ∀ m ∈ ms, ∀ n, m.SameShape n →
      List.Forall₂ Token.SameRendering (m.tokensIn c) (n.tokensIn c)) :
    List.Forall₂ (List.Forall₂ Token.SameRendering) (memberTokens c ms) (memberTokens c ns) := by
  induction h with
  | nil => exact .nil
  | cons hm _ ihms =>
    obtain ⟨hfirst, hrest⟩ := List.forall_mem_cons.1 ih
    rw [memberTokens, memberTokens, hm.isEmpty]
    -- a member that is left out on one side is left out on the other
    split
    · exact ihms hrest
    · exact .cons (hfirst _ hm) (ihms hrest)

theorem sameRendering_intercalate (c : Connective) {tss uss : List (List Token)}
    (h : List.Forall₂ (List.Forall₂ Token.SameRendering) tss uss) :
    List.Forall₂ Token.SameRendering ([Token.connective c].intercalate tss)
      ([Token.connective c].intercalate uss) := by
  have hc : List.Forall₂ Token.SameRendering [.connective c] [.connective c] :=
    .cons (.refl _) .nil
  induction h with
  | nil => exact .nil
  | cons hts htss ih =>
    -- the connective is put between the same places of both
    cases htss with
    | nil => simpa using hts
    | cons =>
      rw [List.intercalate_cons_cons, List.intercalate_cons_cons]
      exact List.rel_append (List.rel_append hts hc) ih

theorem SameShape.tokensIn {c d : Condition} (h : c.SameShape d) (outer : Connective) :
    List.Forall₂ Token.SameRendering (c.tokensIn outer) (d.tokensIn outer) := by
  induction c using induct generalizing d outer with
  | predicate p =>
    cases h with
    | predicate h => exact .cons h.rendering .nil
  | raw sql =>
    cases h
    exact .cons (.refl _) .nil
  | group c ms ih =>
    cases h with
    | group _ hms =>
      have hparts := sameRendering_memberTokens c hms fun m hm n hmn => ih m hm hmn c
      have hinner := sameRendering_intercalate c hparts
      have hopening : Token.SameRendering .opening .opening := .refl _
      have hclosing : Token.SameRendering .closing .closing := .refl _
      -- the parentheses depend on the connectives and on the number of parts
      rw [Condition.tokensIn, Condition.tokensIn, hparts.length_eq]
      split
      · exact List.rel_append (.cons hopening hinner) (.cons hclosing .nil)
      · exact hinner

end Condition

theorem ConditionGroup.SameShape.isEmpty {g h : ConditionGroup} (hgh : g.SameShape h) :
    g.isEmpty = h.isEmpty := Condition.SameShape.isEmpty hgh

theorem ConditionGroup.SameShape.rendering {g h : ConditionGroup} (hgh : g.SameShape h) :
    g.rendering.SameShape h.rendering := by
  have htokens : List.Forall₂ Condition.Token.SameRendering g.tokens h.tokens := by
    have hin := Condition.SameShape.tokensIn hgh
    obtain ⟨c, ms⟩ := g
    obtain ⟨c', ns⟩ := h
    -- a group without parentheses has the tokens of a member with its own connective
    cases hgh with
    | group c hms =>
      rw [← tokensIn_toCondition ⟨c, ms⟩, ← tokensIn_toCondition ⟨c, ns⟩]
      exact hin c
  apply Rendering.sameShape_concat
  rw [List.forall₂_map_left_iff, List.forall₂_map_right_iff]
  exact htokens

/-! ## Clauses -/

section clauses

open Rendering

theorem Join.SameShape.rendering {j k : Join} (h : j.SameShape k) :
    j.rendering.SameShape k.rendering := by
  have halias : j.aliasRendering = k.aliasRendering := by
    unfold Join.aliasRendering
    rw [h.aliasName]
  have hconditions := h.conditions.rendering
  unfold Join.rendering
  -- what holds no values is the same, also whether the conditions are written
  rw [halias, h.direction, h.table, h.unification, h.conditions.isEmpty]
  apply SameShape.append (.refl _)
  split
  · exact .refl empty
  · exact (SameShape.refl _).append hconditions

namespace Query

theorem sameShape_expressions {es fs : List Expression}
    (h : List.Forall₂ Expression.SameShape es fs) :
    (expressions es).SameShape (expressions fs) :=
  sameShape_sepBy_map ", " (fun _ _ he => sameShape_expression he) h

theorem sameShape_columnsRendering {es fs : List Expression}
    (h : List.Forall₂ Expression.SameShape es fs) :
    (columnsRendering es).SameShape (columnsRendering fs) := by
  unfold columnsRendering
  rw [isEmpty_of_forall₂ h]
  split
  · exact .refl (text "*")
  · exact sameShape_expressions h

/-- A line that is written for both queries or for neither. -/
theorem sameShape_line {b b' : Bool} (hb : b = b') {r s : Rendering} (h : r.SameShape s) :
    List.Forall₂ Rendering.SameShape (if b then [] else [r]) (if b' then [] else [s]) := by
  rw [hb]
  split
  · exact .nil
  · exact .cons h .nil

theorem sameShape_conditionLine (keyword : String) {g h : ConditionGroup}
    (hgh : g.SameShape h) :
    List.Forall₂ Rendering.SameShape (conditionLine keyword g) (conditionLine keyword h) :=
  sameShape_line hgh.isEmpty ((SameShape.refl (text keyword)).append hgh.rendering)

namespace SameShape

variable {q r : Query}

theorem valuesIsEmpty (h : q.SameShape r) : q.values.isEmpty = r.values.isEmpty :=
  isEmpty_of_forall₂ h.values

/-- The lines that hold no values are the same, so only the others are compared. -/
theorem selectLines (h : q.SameShape r) :
    List.Forall₂ Rendering.SameShape q.selectLines r.selectLines := by
  have hsame (ls : List Rendering) : List.Forall₂ Rendering.SameShape ls ls :=
    List.forall₂_same.2 fun l _ => .refl l
  have hselect := SameShape.refl (text (if r.distinct then "SELECT DISTINCT " else "SELECT "))
  have hcolumns := hselect.append (sameShape_columnsRendering h.columns)
  have hjoins : (joinsRendering q.joins).SameShape (joinsRendering r.joins) :=
    sameShape_sepBy_map "\n" (fun _ _ hj => Join.SameShape.rendering hj) h.joins
  have hgroupBys := (SameShape.refl (text "GROUP BY ")).append (sameShape_expressions h.groupBys)
  unfold Query.selectLines
  rw [h.distinct, h.table, h.orderBys, h.limit, h.offset]
  -- one goal for each line that may hold parameters, in order
  refine List.rel_append (List.rel_append (List.rel_append (List.rel_append (List.rel_append
    (List.rel_append (List.rel_append ?_ ?_) ?_) ?_) ?_) (hsame _)) (hsame _)) (hsame _)
  · exact .cons hcolumns (hsame _)
  · exact sameShape_line (isEmpty_of_forall₂ h.joins) hjoins
  · exact sameShape_conditionLine "WHERE " h.conditions
  · exact sameShape_line (isEmpty_of_forall₂ h.groupBys) hgroupBys
  · exact sameShape_conditionLine "HAVING " h.havings

theorem renderInsert (h : q.SameShape r) : q.renderInsert.SameShape r.renderInsert := by
  -- the columns are the same, and their values have one shape each
  have hkeys : q.values.keys = r.values.keys := by
    have hall : List.Forall₂ (· = ·) q.values.keys r.values.keys := by
      unfold OrderedMap.keys
      rw [List.forall₂_map_left_iff, List.forall₂_map_right_iff]
      exact h.values.imp fun _ _ he => he.1
    rwa [List.forall₂_eq_eq_eq] at hall
  have hvalues : (sepBy ", " (q.values.values.map Operand.assigned)).SameShape
      (sepBy ", " (r.values.values.map Operand.assigned)) := by
    unfold OrderedMap.values
    rw [List.map_map, List.map_map]
    exact sameShape_sepBy_map ", " (fun _ _ he => he.2.assigned) h.values
  unfold Query.renderInsert
  rw [h.valuesIsEmpty, h.table, hkeys]
  split
  · exact .refl _
  · exact ((SameShape.refl _).append hvalues).append (.refl _)

theorem renderUpdate (h : q.SameShape r) : q.renderUpdate.SameShape r.renderUpdate := by
  have hassignments : (sepBy ", " (q.values.entries.map fun e => assignment e.1 e.2)).SameShape
      (sepBy ", " (r.values.entries.map fun e => assignment e.1 e.2)) := by
    refine sameShape_sepBy_map ", " (fun e f he => ?_) h.values
    unfold assignment
    rw [he.1]
    exact (SameShape.refl _).append he.2.assigned
  unfold Query.renderUpdate
  rw [h.valuesIsEmpty, h.table]
  split
  · exact .refl _
  -- the head, the assignments, and the conditions if there are any
  · apply sameShape_sepBy
    refine List.rel_append ?_ (sameShape_conditionLine "WHERE " h.conditions)
    exact .cons (.refl _) (.cons ((SameShape.refl _).append hassignments) .nil)

theorem renderDelete (h : q.SameShape r) : q.renderDelete.SameShape r.renderDelete := by
  unfold Query.renderDelete
  rw [h.table]
  apply sameShape_sepBy
  exact .cons (.refl _) (sameShape_conditionLine "WHERE " h.conditions)

theorem rendering (h : q.SameShape r) : q.rendering.SameShape r.rendering := by
  unfold Query.rendering
  rw [h.operation]
  cases r.operation with
  | select => exact sameShape_sepBy "\n" h.selectLines
  | insert => exact h.renderInsert
  | update => exact h.renderUpdate
  | delete => exact h.renderDelete

end SameShape

/-! ## Statements of queries of the same shape -/

/-- Under every shipped dialect and without one, queries that differ at most in values have the
    same text with as many parameters, or fail on the same error. -/
theorem statement_of_sameShape (db : Option Database) {q r : Query} (h : q.SameShape r) :
    (q.rendering.statement (Dialect.ofDatabase db)).map (fun s => (s.sql, s.params.length)) =
      (r.rendering.statement (Dialect.ofDatabase db)).map (fun s => (s.sql, s.params.length)) :=
  h.rendering.statement (Dialect.render?_ofDatabase db)

/-- A prepared fragment, a list, a single value, a test for `NULL` and a marked key. A value that
    is written like SQL stays a value. -/
theorem statement_of_sameShape_members :
    let member (ids : List Param) : Predicate := ⟨.key "id", some "in", .list ids, false⟩
    let named (name : Param) : Predicate := .ofValue "name" "=" name
    let query (default name : Param) (ids : List Param) : Query := { Query.select "t" with
      columns := [.sql "coalesce(x, ?)" [default]]
      conditions := ⟨.and, [.predicate (member ids), .predicate (named name),
        .predicate (.ofValue "gone" "=" .null), .predicate (.ofKeys "t.a" "=" "t.b")]⟩ }
    let q := query (.int 1) (.string "x") [.int 2, .int 3]
    let r := query .null (.string "' OR 1 = 1 --") [.string "?", .null]
    let d := Dialect.ofDatabase (some .postgres)
    let sql := "SELECT coalesce(x, ?)\nFROM \"t\"\nWHERE \"id\" IN (?, ?) AND \"name\" = ? AND " ++
      "\"gone\" IS NULL AND \"t\".\"a\" = \"t\".\"b\""
    q.SameShape r ∧
      (q.rendering.statement d).map (fun s => (s.sql, s.params.length)) = .ok (sql, 4) ∧
      (r.rendering.statement d).map (fun s => (s.sql, s.params.length)) = .ok (sql, 4) := by
  intro member named query q r d sql
  -- the sides that are compared may differ in their values only
  have hpredicate (left op : String) {o o' : Operand} (ho : o.SameRight false o') :
      Condition.SameShape (.predicate ⟨.key left, some op, o, false⟩)
        (.predicate ⟨.key left, some op, o', false⟩) :=
    .predicate ⟨.key left, rfl, rfl, ho⟩
  -- two keys hold no values
  have hkeys : Condition.SameShape (.predicate (.ofKeys "t.a" "=" "t.b"))
      (.predicate (.ofKeys "t.a" "=" "t.b")) :=
    .predicate ⟨.key "t.a", rfl, rfl, .value rfl rfl fun _ => .inl rfl⟩
  have hconditions : q.conditions.SameShape r.conditions :=
    .group .and (.cons (hpredicate "id" "in" (.list rfl))
      (.cons (hpredicate "name" "=" (.value rfl rfl nofun))
        (.cons (hpredicate "gone" "=" .null) (.cons hkeys .nil))))
  have hqr : q.SameShape r :=
    { operation := rfl
      table := rfl
      columns := .cons (.sql "coalesce(x, ?)" rfl) .nil
      values := .nil
      joins := .nil
      conditions := hconditions
      groupBys := .nil
      havings := .group .and .nil
      orderBys := rfl
      distinct := rfl
      limit := rfl
      offset := rfl }
  have hq : (q.rendering.statement d).map (fun s => (s.sql, s.params.length)) = .ok (sql, 4) := by
    decide +kernel
  exact ⟨hqr, hq, (statement_of_sameShape (some .postgres) hqr).symm.trans hq⟩

end Query

end clauses

end EntitySql
