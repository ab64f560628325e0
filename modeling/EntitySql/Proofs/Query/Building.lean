import EntitySql.Proofs.Condition.Meaning
import EntitySql.Proofs.Statement.Building
import EntitySql.Query

/-! # Building queries and their parts

    For each part of a statement, from expressions to queries, there is a
    program that builds it behind whatever is there already. Such a program
    decides step by step: whether the dialect renders an expression by itself,
    whether a predicate can be written once its left side is there, which members
    of a group are written and whether they need parentheses, and which lines a
    query has.

    Each program builds the rendering of its part. So the part can be rendered
    at any place of a statement, and behind the bindings of any caller: what is
    appended, and whether and on which error it ends, is the same as if it were
    rendered alone, even if it ends in the middle of a list.
-/

namespace EntitySql

open Building

variable {d : Dialect}

/-! ## Expressions and operands -/

/-- An expression, as the dialect renders it or else as it is. -/
def Expression.build (d : Dialect) (e : Expression) : Building Unit := do
  if ← offer d e then return
  match e with
  | raw t => push t
  | key n none => pushName d n
  | key n (some a) =>
    pushName d n
    push " AS "
    pushName d a
  | sql t ps =>
    push t
    extendParams ps

/-- The pieces of an expression are pushed, whoever has chosen them. -/
theorem Expression.build_eq (d : Dialect) (e : Expression) :
    e.build d = pushPieces d (d.pieces e) := by
  unfold Expression.build offer Dialect.pieces
  cases d.render? e with
  | some ps => simp
  | none =>
    cases e with
    | raw t => simp [Expression.pieces, pushPieces, pushPiece]
    | key n a => cases a <;> simp [Expression.pieces, pushPieces, pushPiece]
    | sql t ps => simp [Expression.pieces, pushPieces, pushPiece]

theorem builds_pieces (d : Dialect) (ps : List Piece) :
    Builds d (pushPieces d ps) ⟨ps.map Element.piece, none⟩ := by
  induction ps with
  | nil => exact Builds.empty
  | cons p ps ih =>
    have hpiece : Builds d (pushPiece d p) (.single (.piece p)) := by
      cases p <;> exact fun _ => rfl
    exact hpiece.append ih

theorem builds_expression (d : Dialect) (e : Expression) :
    Builds d (e.build d) (.expression e) := by
  intro s
  have hpieces : ((d.pieces e).map Element.piece).flatMap (Element.pieces d) =
      (Rendering.expression e).pieces d := by
    rw [List.flatMap_map]
    exact (List.flatMap_singleton' (d.pieces e)).trans (List.append_nil _).symm
  rw [e.build_eq, builds_pieces d (d.pieces e) s]
  exact congrArg (fun ps => (Except.ok (), s.write d ps)) hpieces

namespace Operand

def buildLeft (d : Dialect) : Operand → Building Unit
  | key name => pushName d name
  | expression e => e.build d
  | value p => throw (.typeMismatch .keyOrExpressionOnLeft (value p).kind)
  | list ps => throw (.typeMismatch .keyOrExpressionOnLeft (list ps).kind)

def buildAssigned (d : Dialect) : Operand → Building Unit
  | key name => pushName d name
  | expression e => e.build d
  | value p => pushParam p
  | list ps => throw (.typeMismatch .singleValue (list ps).kind)

end Operand

theorem builds_leftSide (d : Dialect) (o : Operand) : Builds d (o.buildLeft d) o.leftSide := by
  cases o with
  | key name => exact Builds.name name
  | expression e => exact builds_expression d e
  | value p => exact Builds.fail _
  | list ps => exact Builds.fail _

theorem builds_assigned (d : Dialect) (o : Operand) : Builds d (o.buildAssigned d) o.assigned := by
  cases o with
  | key name => exact Builds.name name
  | expression e => exact builds_expression d e
  | value p => exact Builds.param p
  | list ps => exact Builds.fail _

/-! ## Predicates -/

namespace Predicate

def buildHead (d : Dialect) (p : Predicate) (op : Operator) : Building Unit := do
  p.left.buildLeft d
  pushAll [" ", op.sql, " "]

def buildParenthesized (inner : Building Unit) : Building Unit := do
  push "("
  inner
  push ")"

/-- Membership. The empty list is written without the left side. -/
def buildMembership (d : Dialect) (p : Predicate) (op : Operator) : Building Unit :=
  match p.right with
  | .list [] => push (if op = .notIn then "1 = 1" else "1 = 0")
  | .list ps => do
    p.buildHead d op
    buildParenthesized (pushIter ", " pushParam ps)
  | .value .null => do
    p.left.buildLeft d
    push (if op = .notIn then " IS NOT NULL" else " IS NULL")
  | .value v => do
    p.buildHead d op
    buildParenthesized (pushParam v)
  | .expression e => do
    p.buildHead d op
    if e.startsParenthesis then e.build d else buildParenthesized (e.build d)
  | .key name => throw (.typeMismatch (.listFor op) (Operand.key name).kind)

/-- The right side of an operator that compares with a single value. Whether it is a name is decided
    when the left side and the operator have been pushed. -/
def buildRight (d : Dialect) (p : Predicate) (op : Operator) : Building Unit := do
  match ← ofOutcome p.rightKey with
  | some name => pushName d name
  | none =>
    match p.right with
    | .key name => pushName d name
    | .expression e => e.build d
    | .value v => pushParam v
    | .list ps => throw (.typeMismatch (.singleValueFor op) (Operand.list ps).kind)

/-- A comparison by an operator other than membership. -/
def buildComparison (d : Dialect) (p : Predicate) (op : Operator) : Building Unit :=
  match p.right, op.nullTest? with
  | .value .null, some test => do
    p.left.buildLeft d
    pushAll [" ", test]
  | _, _ => do
    p.buildHead d op
    p.buildRight d op

/-- A predicate. Nothing is pushed if the operator is not supported. -/
def build (d : Dialect) (p : Predicate) : Building Unit := do
  match ← ofOutcome p.readOperator with
  | none => p.left.buildLeft d
  | some op => if op.isMembership then p.buildMembership d op else p.buildComparison d op

end Predicate

section predicate

variable (d : Dialect) (p : Predicate) (op : Operator)

theorem builds_head : Builds d (p.buildHead d op) (p.membershipHead op) := by
  have htext : String.join [" ", op.sql, " "] = " " ++ op.sql ++ " " := by
    simp [String.join_cons, String.append_assoc]
  exact (builds_leftSide d p.left).append (Builds.texts htext)

theorem builds_parenthesized {d : Dialect} {inner : Building Unit} {r : Rendering}
    (h : Builds d inner r) :
    Builds d (Predicate.buildParenthesized inner) (Predicate.parenthesized r) := by
  unfold Predicate.parenthesized
  rw [Rendering.append_assoc]
  exact (Builds.text "(").append (h.append (Builds.text ")"))

theorem builds_membership : Builds d (p.buildMembership d op) (p.membership op) := by
  have hhead := builds_head d p op
  unfold Predicate.buildMembership Predicate.membership
  -- one program for each form of the right side
  cases p.right with
  | key name => exact Builds.fail _
  | expression e =>
    have hinner := builds_expression d e
    exact hhead.append (hinner.ite (builds_parenthesized hinner))
  | value v =>
    cases v with
    | null => exact (builds_leftSide d p.left).append (Builds.text _)
    | _ => exact hhead.append (builds_parenthesized (Builds.param _))
  | list ps =>
    cases ps with
    | nil => exact Builds.text _
    | cons q qs => exact hhead.append (builds_parenthesized (Builds.iter fun v _ => Builds.param v))

theorem builds_right : Builds d (p.buildRight d op) (p.rightSide op) := by
  unfold Predicate.buildRight Predicate.rightSide
  -- a mark that the right side does not bear out ends the program here, behind the operator
  cases p.rightKey with
  | error e => exact Builds.ofError e _
  | ok key =>
    refine Builds.ofValue ?_
    cases key with
    | some name => exact Builds.name name
    | none =>
      cases p.right with
      | key name => exact Builds.name name
      | expression e => exact builds_expression d e
      | value v => exact Builds.param v
      | list ps => exact Builds.fail _

theorem builds_comparison : Builds d (p.buildComparison d op) (p.comparison op) := by
  have hcompared := (builds_head d p op).append (builds_right d p op)
  unfold Predicate.buildComparison Predicate.comparison
  cases p.right with
  | value v =>
    cases v with
    | null =>
      -- only two operators have a form for NULL
      cases op.nullTest? with
      | none => exact hcompared
      | some test =>
        have htext : String.join [" ", test] = " " ++ test := by simp [String.join_cons]
        exact (builds_leftSide d p.left).append (Builds.texts htext)
    | _ => exact hcompared
  | _ => exact hcompared

theorem builds_predicate : Builds d (p.build d) p.rendering := by
  unfold Predicate.build Predicate.rendering
  -- an unknown operator ends the program before anything is pushed
  cases p.readOperator with
  | error e => exact Builds.ofError e _
  | ok operator =>
    refine Builds.ofValue ?_
    cases operator with
    | none => exact builds_leftSide d p.left
    | some op => exact (builds_membership d p op).ite (builds_comparison d p op)

end predicate

/-! ## Condition groups -/

namespace Condition

mutual

/-- A condition as a member of a group with the given connective. A group in it stands in
    parentheses if its connective is another one and more than one of its members is written. -/
def buildIn (d : Dialect) (outer : Connective) : Condition → Building Unit
  | predicate p => p.build d
  | raw sql => push sql
  | group c members =>
    let parts := memberBuilds d c members
    let inner := pushIter (" " ++ c.sql ++ " ") id parts
    if c ≠ outer ∧ 1 < parts.length then Predicate.buildParenthesized inner else inner

def memberBuilds (d : Dialect) (c : Connective) : List Condition → List (Building Unit)
  | [] => []
  | m :: ms => if m.isEmpty then memberBuilds d c ms else m.buildIn d c :: memberBuilds d c ms

end

theorem memberBuilds_eq_map (d : Dialect) (c : Connective) (ms : List Condition) :
    memberBuilds d c ms = (written ms).map (buildIn d c) := by
  induction ms with
  | nil => rfl
  | cons m ms ih => cases h : m.isEmpty <;> simp [memberBuilds, written_cons, h, ih]

/-- The tokens of a condition, rendered. -/
def renderingIn (outer : Connective) (c : Condition) : Rendering :=
  .concat ((c.tokensIn outer).map Token.rendering)

theorem concat_intercalate (c : Connective) (tss : List (List Token)) :
    Rendering.concat (([Token.connective c].intercalate tss).map Token.rendering) =
      .sepBy (" " ++ c.sql ++ " ") (tss.map fun ts => .concat (ts.map Token.rendering)) := by
  induction tss with
  | nil => rfl
  | cons ts tss ih =>
    -- no connective comes before a single member
    cases tss with
    | nil => simp
    | cons us tss =>
      rw [List.intercalate_cons_cons, List.map_append, List.map_append, Rendering.concat_append,
        Rendering.concat_append, ih, Rendering.append_assoc]
      rfl

theorem concat_enclosed (ts : List Token) :
    Rendering.concat ((Token.opening :: ts ++ [Token.closing]).map Token.rendering) =
      Predicate.parenthesized (.concat (ts.map Token.rendering)) := by
  unfold Predicate.parenthesized
  rw [List.map_append, Rendering.concat_append, List.map_cons, Rendering.concat_cons]
  exact congrArg (Rendering.text "(" ++ _ ++ ·) (Rendering.append_empty (.text ")"))

/-- The members of a group that are written, with connectives between them. -/
theorem builds_members {c : Connective} {ms : List Condition}
    (h : ∀ m ∈ written ms, Builds d (m.buildIn d c) (m.renderingIn c)) :
    Builds d (pushIter (" " ++ c.sql ++ " ") id (memberBuilds d c ms))
      (.concat (([Token.connective c].intercalate ((written ms).map (tokensIn c))).map
        Token.rendering)) := by
  rw [memberBuilds_eq_map, pushIter_map, concat_intercalate, List.map_map]
  exact Builds.iter h

/-- A condition is built as its tokens are rendered, one after the other. -/
theorem builds_condition (d : Dialect) (c : Condition) (outer : Connective) :
    Builds d (c.buildIn d outer) (c.renderingIn outer) := by
  induction c using induct generalizing outer with
  | predicate p =>
    show Builds d (p.build d) (p.rendering ++ .empty)
    rw [Rendering.append_empty]
    exact builds_predicate d p
  | raw sql =>
    show Builds d (push sql) (.text sql ++ .empty)
    rw [Rendering.append_empty]
    exact Builds.text sql
  | group c members ih =>
    have hinner := builds_members fun m hm => ih m (mem_written.1 hm).1 c
    unfold renderingIn buildIn
    dsimp only
    rw [tokensIn_group, memberBuilds_eq_map, List.length_map, ← memberBuilds_eq_map]
    -- program and tokens decide on the parentheses in the same way
    by_cases hparens : c ≠ outer ∧ 1 < (written members).length
    · rw [if_pos hparens, if_pos hparens, concat_enclosed]
      exact builds_parenthesized hinner
    · rw [if_neg hparens, if_neg hparens]
      exact hinner

end Condition

/-- A group without parentheses around it. -/
def ConditionGroup.build (d : Dialect) (g : ConditionGroup) : Building Unit :=
  pushIter (" " ++ g.connective.sql ++ " ") id (Condition.memberBuilds d g.connective g.members)

theorem builds_group (d : Dialect) (g : ConditionGroup) : Builds d (g.build d) g.rendering := by
  unfold ConditionGroup.build ConditionGroup.rendering ConditionGroup.tokens
  rw [Condition.memberTokens_eq_written]
  exact Condition.builds_members fun m _ => Condition.builds_condition d m g.connective

/-! ## Joins and sort keys -/

namespace Join

/-- The name under which the table is joined, if it is not the table's own. -/
def buildAlias (d : Dialect) (j : Join) : Building Unit :=
  match j.aliasName with
  | none => pure ()
  | some a => do
    push " AS "
    pushName d a

/-- A keyword and conditions, unless these are empty. -/
def buildConditions (d : Dialect) (j : Join) : Building Unit :=
  if j.conditions.isEmpty then pure ()
  else do
    pushAll [" ", j.unification, " "]
    j.conditions.build d

def build (d : Dialect) (j : Join) : Building Unit := do
  pushAll [j.direction.sql, " "]
  pushName d j.table
  j.buildAlias d
  j.buildConditions d

end Join

theorem builds_join (d : Dialect) (j : Join) : Builds d (j.build d) j.rendering := by
  have halias : Builds d (j.buildAlias d) j.aliasRendering := by
    unfold Join.buildAlias Join.aliasRendering
    cases j.aliasName with
    | none => exact Builds.empty
    | some a => exact (Builds.text " AS ").append (Builds.name a)
  -- the program pushes texts one by one that the rendering holds as one
  have hdirection : String.join [j.direction.sql, " "] = j.direction.sql ++ " " := by
    simp [String.join_cons]
  have hkeyword : String.join [" ", j.unification, " "] = " " ++ j.unification ++ " " := by
    simp [String.join_cons, String.append_assoc]
  have hconditions := (Builds.texts hkeyword).append (builds_group d j.conditions)
  unfold Join.build Join.rendering
  rw [Rendering.append_assoc, Rendering.append_assoc]
  exact (Builds.texts hdirection).append ((Builds.name j.table).append
    (halias.append (Builds.empty.ite hconditions)))

def OrderBy.build (d : Dialect) (o : OrderBy) : Building Unit :=
  pushIter ", " (fun e => do
    pushName d e.1
    pushAll [" ", e.2.sql]) o.entries

theorem builds_orderBy (d : Dialect) (o : OrderBy) :
    Builds d (OrderBy.build d o) (OrderBy.rendering o) := by
  apply Builds.iter
  intro e _
  have htext : String.join [" ", e.2.sql] = " " ++ e.2.sql := by simp [String.join_cons]
  exact (Builds.name e.1).append (Builds.texts htext)

/-! ## Queries -/

namespace Query

def buildExpressions (d : Dialect) (es : List Expression) : Building Unit :=
  pushIter ", " (Expression.build d) es

/-- The selected columns; without any, all of them. -/
def buildColumns (d : Dialect) (columns : List Expression) : Building Unit :=
  if columns.isEmpty then push "*" else buildExpressions d columns

def buildJoins (d : Dialect) (joins : List Join) : Building Unit :=
  pushIter "\n" (Join.build d) joins

/-- What a statement begins with, and the table that it is about. -/
def buildTable (d : Dialect) (keyword table : String) : Building Unit := do
  push keyword
  pushName d table

/-- A line of conditions, unless they are empty. -/
def buildConditions (d : Dialect) (keyword : String) (g : ConditionGroup) : Building Unit :=
  pushLine g.isEmpty do
    push keyword
    g.build d

/-- A line with a number, if there is one. -/
def buildNumber (keyword : String) (n : Option UInt64) : Building Unit :=
  match n with
  | none => pure ()
  | some n => pushLine false (push (keyword ++ toString n.toNat))

/-- The first line of a selection. -/
def buildSelected (d : Dialect) (q : Query) : Building Unit := do
  pushAll (if q.distinct then ["SELECT ", "DISTINCT "] else ["SELECT "])
  buildColumns d q.columns

/-- A selection, line by line. -/
def buildSelect (d : Dialect) (q : Query) : Building Unit := do
  q.buildSelected d
  pushLine false (buildTable d "FROM " q.table)
  pushLine q.joins.isEmpty (buildJoins d q.joins)
  buildConditions d "WHERE " q.conditions
  pushLine q.groupBys.isEmpty do
    push "GROUP BY "
    buildExpressions d q.groupBys
  buildConditions d "HAVING " q.havings
  pushLine q.orderBys.isEmpty do
    push "ORDER BY "
    OrderBy.build d q.orderBys
  buildNumber "LIMIT " q.limit
  buildNumber "OFFSET " q.offset

def buildInsert (d : Dialect) (q : Query) : Building Unit :=
  if q.values.isEmpty then throw (.unsupported (.insertWithoutValues q.table))
  else do
    push "INSERT INTO "
    pushName d q.table
    push " ("
    pushIter ", " (pushName d) q.values.keys
    pushAll [")", "\n", "VALUES ("]
    pushIter ", " (Operand.buildAssigned d) q.values.values
    push ")"

def buildAssignment (d : Dialect) (column : String) (value : Operand) : Building Unit := do
  pushName d column
  push " = "
  value.buildAssigned d

def buildUpdate (d : Dialect) (q : Query) : Building Unit :=
  if q.values.isEmpty then throw (.unsupported (.updateWithoutValues q.table))
  else do
    buildTable d "UPDATE " q.table
    pushLine false do
      push "SET "
      pushIter ", " (fun e => buildAssignment d e.1 e.2) q.values.entries
    buildConditions d "WHERE " q.conditions

def buildDelete (d : Dialect) (q : Query) : Building Unit := do
  buildTable d "DELETE FROM " q.table
  buildConditions d "WHERE " q.conditions

def build (d : Dialect) (q : Query) : Building Unit :=
  match q.operation with
  | .select => q.buildSelect d
  | .insert => q.buildInsert d
  | .update => q.buildUpdate d
  | .delete => q.buildDelete d

end Query

section query

variable (d : Dialect) (q : Query)

theorem builds_expressions (es : List Expression) :
    Builds d (Query.buildExpressions d es) (Query.expressions es) :=
  Builds.iter fun e _ => builds_expression d e

theorem builds_columns (columns : List Expression) :
    Builds d (Query.buildColumns d columns) (Query.columnsRendering columns) :=
  (Builds.text "*").ite (builds_expressions d columns)

theorem builds_joins (joins : List Join) :
    Builds d (Query.buildJoins d joins) (Query.joinsRendering joins) :=
  Builds.iter fun j _ => builds_join d j

theorem builds_table (keyword table : String) :
    Builds d (Query.buildTable d keyword table) (.text keyword ++ .name table) :=
  (Builds.text keyword).append (Builds.name table)

theorem lines_conditions (keyword : String) (g : ConditionGroup) :
    Builds.Lines d (Query.buildConditions d keyword g) (Query.conditionLine keyword g) :=
  Builds.line g.isEmpty ((Builds.text keyword).append (builds_group d g))

theorem lines_number (keyword : String) (n : Option UInt64) :
    Builds.Lines d (Query.buildNumber keyword n) (Query.numberLine keyword n) := by
  cases n with
  | none => exact Builds.empty
  | some n => exact Builds.line false (Builds.text _)

theorem builds_select : Builds d (q.buildSelect d) q.renderSelect := by
  -- the lines in their order; each is either absent on both sides or present on both
  have hselected : Builds d (q.buildSelected d)
      (.text (if q.distinct then "SELECT DISTINCT " else "SELECT ") ++
        Query.columnsRendering q.columns) := by
    refine Builds.append (Builds.texts ?_) (builds_columns d q.columns)
    cases q.distinct <;> decide
  have hgroups := Builds.line q.groupBys.isEmpty
    ((Builds.text "GROUP BY ").append (builds_expressions d q.groupBys))
  have hsortKeys := Builds.line q.orderBys.isEmpty
    ((Builds.text "ORDER BY ").append (builds_orderBy d q.orderBys))
  unfold Query.renderSelect Query.selectLines
  simp only [List.append_assoc, List.cons_append, List.nil_append]
  exact hselected.lines ((Builds.line false (builds_table d "FROM " q.table)).append
    ((Builds.line q.joins.isEmpty (builds_joins d q.joins)).append
      ((lines_conditions d "WHERE " q.conditions).append (hgroups.append
        ((lines_conditions d "HAVING " q.havings).append (hsortKeys.append
          ((lines_number d "LIMIT " q.limit).append (lines_number d "OFFSET " q.offset))))))))

theorem builds_insert : Builds d (q.buildInsert d) q.renderInsert := by
  unfold Query.buildInsert Query.renderInsert
  refine (Builds.fail _).ite ?_
  simp only [Rendering.append_assoc]
  -- two lists of the same map, first its keys and then its values
  have hcolumns : Builds d (pushIter ", " (pushName d) q.values.keys)
      (.sepBy ", " (q.values.keys.map .name)) := Builds.iter fun n _ => Builds.name n
  have hvalues : Builds d (pushIter ", " (Operand.buildAssigned d) q.values.values)
      (.sepBy ", " (q.values.values.map Operand.assigned)) :=
    Builds.iter fun o _ => builds_assigned d o
  exact (Builds.text "INSERT INTO ").append ((Builds.name q.table).append
    ((Builds.text " (").append (hcolumns.append ((Builds.texts (by decide)).append
      (hvalues.append (Builds.text ")"))))))

theorem builds_update : Builds d (q.buildUpdate d) q.renderUpdate := by
  have hassignments : Builds d
      (pushIter ", " (fun e => Query.buildAssignment d e.1 e.2) q.values.entries)
      (.sepBy ", " (q.values.entries.map fun e => Query.assignment e.1 e.2)) := by
    apply Builds.iter
    intro e _
    unfold Query.assignment
    rw [Rendering.append_assoc]
    exact (Builds.name e.1).append ((Builds.text " = ").append (builds_assigned d e.2))
  have hset := Builds.line false ((Builds.text "SET ").append hassignments)
  unfold Query.buildUpdate Query.renderUpdate
  exact (Builds.fail _).ite ((builds_table d "UPDATE " q.table).lines
    (hset.append (lines_conditions d "WHERE " q.conditions)))

theorem builds_delete : Builds d (q.buildDelete d) q.renderDelete :=
  (builds_table d "DELETE FROM " q.table).lines (lines_conditions d "WHERE " q.conditions)

theorem builds_query : Builds d (q.build d) q.rendering := by
  unfold Query.build Query.rendering
  cases q.operation with
  | select => exact builds_select d q
  | insert => exact builds_insert d q
  | update => exact builds_update d q
  | delete => exact builds_delete d q

end query

/-! ## All parts of a statement -/

/-- What can be rendered by itself: the parts of statements, and what a caller can render as a
    fragment. -/
inductive Construct where
  | expression (e : Expression)
  | predicate (p : Predicate)
  | group (g : ConditionGroup)
  | join (j : Join)
  | sortKeys (o : OrderBy)
  | query (q : Query)
  | columns (es : List Expression)
  | joins (js : List Join)
  | groupings (es : List Expression)

namespace Construct

def build (d : Dialect) : Construct → Building Unit
  | expression e => e.build d
  | predicate p => p.build d
  | group g => g.build d
  | join j => j.build d
  | sortKeys o => OrderBy.build d o
  | query q => q.build d
  | columns es => Query.buildColumns d es
  | joins js => Query.buildJoins d js
  | groupings es => Query.buildExpressions d es

def rendering : Construct → Rendering
  | expression e => .expression e
  | predicate p => p.rendering
  | group g => g.rendering
  | join j => j.rendering
  | sortKeys o => OrderBy.rendering o
  | query q => q.rendering
  | columns es => Query.columnsRendering es
  | joins js => Query.joinsRendering js
  | groupings es => Query.expressions es

theorem builds (d : Dialect) (x : Construct) : Builds d (x.build d) x.rendering := by
  cases x with
  | expression e => exact builds_expression d e
  | predicate p => exact builds_predicate d p
  | group g => exact builds_group d g
  | join j => exact builds_join d j
  | sortKeys o => exact builds_orderBy d o
  | query q => exact builds_query d q
  | columns es => exact builds_columns d es
  | joins js => exact builds_joins d js
  | groupings es => exact builds_expressions d es

/-- Building a construct appends to the statement at hand what it writes to an empty one, and ends
    in the same way, with or without an error; this is what its rendering does. So a fragment,
    whether it succeeds or fails, leaves its caller with the bindings as they were, followed by
    those that it has pushed by itself. -/
theorem build_appends (d : Dialect) (x : Construct) :
    (∀ s, (x.build d).runOn s =
      (((x.build d).runOn .empty).1, s ++ ((x.build d).runOn .empty).2)) ∧
    (∀ s, (x.build d).runOn s = (x.rendering.outcome, x.rendering.writeTo d s)) ∧
    ∀ bindings, (x.build d).fragment.run bindings = x.rendering.fragment d bindings ∧
      (x.build d).fragment.run bindings =
        (((x.build d).runOn .empty).1.map fun _ => ((x.build d).runOn .empty).2.sql,
          bindings ++ ((x.build d).runOn .empty).2.params) := by
  have hbuilds := x.builds d
  exact ⟨hbuilds.frame, hbuilds, fun bindings =>
    ⟨hbuilds.run_fragment bindings, hbuilds.run_fragment_frame bindings⟩⟩

/-- The second member fails after its left side and its operator. -/
example :
    let g : ConditionGroup := ⟨.and, [.predicate (.ofValue "x" "=" (.int 2)),
      .predicate ⟨.key "y", some "<", .list [.int 3], false⟩]⟩
    ((Construct.group g).build .postgres).runOn ⟨"SELECT 1\nWHERE ", [.int 1]⟩ =
      (.error (.typeMismatch (.singleValueFor .less) "list"),
        ⟨"SELECT 1\nWHERE \"x\" = ? AND \"y\" < ", [.int 1, .int 2]⟩) := by
  decide +kernel

end Construct

end EntitySql
