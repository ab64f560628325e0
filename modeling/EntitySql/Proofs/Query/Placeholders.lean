import EntitySql.Proofs.Condition.Meaning
import EntitySql.Proofs.Statement.Alignment
import EntitySql.Query

/-! # Placeholders of queries

    A query is *clean* if the texts that are written as they are do not disturb
    the reader of spans: raw texts and the keywords of joins are quiet, and a
    prepared fragment has one placeholder for each of its parameters. Under a
    shipped dialect names may hold anything, since they are quoted; without a
    dialect they are written as they are and have to be plain.

    All that a clean query writes is aligned, so each placeholder of the
    statement belongs to the parameter of its number.
-/

namespace EntitySql

/-! ## Clean queries -/

section clean

variable (N : String → Prop)

/-- The texts of an expression are clean and its names are among the admitted ones. -/
def Expression.Clean : Expression → Prop
  | raw text => Text.Quiet text
  | key n a => N n ∧ ∀ x ∈ a, N x
  | sql text params => Statement.Aligned ⟨text, params⟩

/-- So for an operand; values and lists have no texts. -/
def Operand.Clean : Operand → Prop
  | key n => N n
  | expression e => e.Clean N
  | value _ => True
  | list _ => True

/-- So for a predicate, where a string that is marked as a key is a name. -/
structure Predicate.Clean (p : Predicate) : Prop where
  left : p.left.Clean N
  right : p.right.Clean N
  rightName : ∀ n, p.right = .value (.string n) → p.rightIsKey = true → N n

def Atom.Clean : Atom → Prop
  | predicate p => p.Clean N
  | raw sql => Text.Quiet sql

/-- So for a condition group. Blank texts in it are not written and may be anything. -/
def ConditionGroup.Clean (g : ConditionGroup) : Prop := ∀ a ∈ g.atoms, a.Clean N

structure Join.Clean (j : Join) : Prop where
  table : N j.table
  aliasName : ∀ a ∈ j.aliasName, N a
  unification : Text.Quiet j.unification
  conditions : j.conditions.Clean N

structure Query.Clean (q : Query) : Prop where
  table : N q.table
  columns : ∀ e ∈ q.columns, e.Clean N
  values : ∀ e ∈ q.values.entries, N e.1 ∧ e.2.Clean N
  joins : ∀ j ∈ q.joins, j.Clean N
  conditions : q.conditions.Clean N
  groupBys : ∀ e ∈ q.groupBys, e.Clean N
  havings : q.havings.Clean N
  orderBys : ∀ e ∈ q.orderBys.entries, N e.1

end clean

/-- The names that may be written for a database: all of them, or plain ones if there is none. -/
def Database.Admits : Option Database → String → Prop
  | none => Text.Plain
  | some _ => fun _ => True

/-- The dialect renders no expression by itself and writes admitted names quietly. -/
structure Dialect.Quiets (d : Dialect) (N : String → Prop) : Prop where
  render : ∀ e, d.render? e = none
  quoteName : ∀ n, N n → Text.Quiet (d.quoteName n)

/-- This is so for the shipped dialects, and for plain names without one. -/
theorem Dialect.quiets_ofDatabase (db : Option Database) :
    (Dialect.ofDatabase db).Quiets (Database.Admits db) := by
  refine ⟨Dialect.render?_ofDatabase db, ?_⟩
  rcases db with _ | db
  · exact fun _ hn => Text.quiet_of_plain hn
  · have hq : Text.isQuote '"' = true := by decide
    have hg : Text.isQuote '\x60' = true := by decide
    cases db with
    | postgres => exact fun n _ => quiet_quoteQualified hq n
    | mysql => exact fun n _ => quiet_quoteQualified hg n
    | sqlite => exact fun n _ => quiet_quoteQualified hq n

/-! ## Spellings -/

theorem Operator.quiet_sql (op : Operator) : Text.Quiet (" " ++ op.sql ++ " ") := by
  cases op <;> decide

theorem Operator.quiet_nullTest {op : Operator} {test : String} (h : op.nullTest? = some test) :
    Text.Quiet (" " ++ test) := by
  have hall : ∀ t ∈ op.nullTest?, Text.Quiet (" " ++ t) := by
    cases op <;> decide
  exact hall test h

theorem Connective.quiet_sql (c : Connective) : Text.Quiet (" " ++ c.sql ++ " ") := by
  cases c <;> decide

theorem Direction.quiet_sql (d : Direction) : Text.Quiet (" " ++ d.sql) := by
  cases d <;> decide

theorem JoinDirection.quiet_sql (d : JoinDirection) : Text.Quiet (d.sql ++ " ") := by
  cases d <;> decide

/-! ## What a clean query writes is aligned -/

section aligned

open Rendering

variable {d : Dialect} {N : String → Prop}

theorem Rendering.aligned_name (hd : d.Quiets N) {n : String} (h : N n) :
    (name n).Aligned d := aligned_single (Piece.aligned_name (hd.quoteName n h))

theorem Rendering.aligned_expression (hd : d.Quiets N) {e : Expression} (h : e.Clean N) :
    (expression e).Aligned d := by
  have hpieces : (expression e).pieces d = e.pieces := by
    simp [pieces, expression, single, Element.pieces, Dialect.pieces, hd.render]
  intro p hp
  rw [hpieces] at hp
  -- one case for each form of an expression, with all the pieces that it has
  cases e with
  | raw text =>
    obtain rfl : p = .text text := by simpa [Expression.pieces] using hp
    exact Piece.aligned_text h
  | sql text params =>
    obtain rfl : p = .fragment text params := by simpa [Expression.pieces] using hp
    exact Piece.aligned_fragment h
  | key n a =>
    obtain ⟨hn, ha⟩ := h
    cases a with
    | none =>
      obtain rfl : p = .name n := by simpa [Expression.pieces] using hp
      exact Piece.aligned_name (hd.quoteName n hn)
    | some x =>
      simp only [Expression.pieces, List.mem_cons, List.not_mem_nil, or_false] at hp
      rcases hp with rfl | rfl | rfl
      · exact Piece.aligned_name (hd.quoteName n hn)
      · exact Piece.aligned_text (by decide)
      · exact Piece.aligned_name (hd.quoteName x (ha x rfl))

theorem Operand.aligned_leftSide (hd : d.Quiets N) {o : Operand} (h : o.Clean N) :
    o.leftSide.Aligned d := by
  cases o with
  | key n => exact aligned_name hd h
  | expression e => exact aligned_expression hd h
  | value p => exact aligned_fail _
  | list ps => exact aligned_fail _

theorem Operand.aligned_assigned (hd : d.Quiets N) {o : Operand} (h : o.Clean N) :
    o.assigned.Aligned d := by
  cases o with
  | key n => exact aligned_name hd h
  | expression e => exact aligned_expression hd h
  | value p => exact aligned_param p
  | list ps => exact aligned_fail _

namespace Predicate

variable {p : Predicate}

/-- The name on the right side is an admitted one. -/
theorem Clean.rightKey (h : p.Clean N) {n : String} (hkey : p.rightKey = .ok (some n)) :
    N n := by
  obtain ⟨left, op, right, isKey⟩ := p
  obtain ⟨-, hright, hname⟩ := h
  -- a name comes from a key or from a string that is marked as one
  cases right with
  | key m =>
    obtain rfl : m = n := by simpa [Predicate.rightKey] using hkey
    exact hright
  | expression e => cases isKey <;> simp [Predicate.rightKey] at hkey
  | list ps => cases isKey <;> simp [Predicate.rightKey] at hkey
  | value v =>
    cases isKey with
    | false => simp [Predicate.rightKey] at hkey
    | true =>
      cases v with
      | string m =>
        obtain rfl : m = n := by simpa [Predicate.rightKey] using hkey
        exact hname m rfl rfl
      | _ => simp [Predicate.rightKey] at hkey

theorem aligned_rightSide (hd : d.Quiets N) (h : p.Clean N) (op : Operator) :
    (p.rightSide op).Aligned d := by
  unfold rightSide
  split
  · exact aligned_fail _
  · next n hkey => exact aligned_name hd (h.rightKey hkey)
  -- where no name is looked up, the operand itself is written
  · have hright := h.right
    split
    · next n heq =>
      rw [heq] at hright
      exact aligned_name hd hright
    · next e heq =>
      rw [heq] at hright
      exact aligned_expression hd hright
    · exact aligned_param _
    · exact aligned_fail _

theorem aligned_comparison (hd : d.Quiets N) (h : p.Clean N) (op : Operator) :
    (p.comparison op).Aligned d := by
  have hleft := Operand.aligned_leftSide hd h.left
  unfold comparison
  split
  · next test _ htest => exact hleft.append (aligned_text (op.quiet_nullTest htest))
  · exact (hleft.append (aligned_text op.quiet_sql)).append (aligned_rightSide hd h op)

theorem aligned_parenthesized {r : Rendering} (h : r.Aligned d) :
    (parenthesized r).Aligned d :=
  ((aligned_text (by decide)).append h).append (aligned_text (by decide))

theorem aligned_membership (hd : d.Quiets N) (h : p.Clean N) (op : Operator) :
    (p.membership op).Aligned d := by
  have hleft := Operand.aligned_leftSide hd h.left
  have hhead : (p.membershipHead op).Aligned d := hleft.append (aligned_text op.quiet_sql)
  have hright := h.right
  unfold membership
  -- the forms of membership in order: empty list, list, NULL, value, expression
  split
  · apply aligned_text
    split <;> decide
  · apply hhead.append
    apply aligned_parenthesized
    apply aligned_sepBy (by decide)
    exact List.forall_mem_map.2 fun v _ => aligned_param v
  · apply hleft.append
    apply aligned_text
    split <;> decide
  · exact hhead.append (aligned_parenthesized (aligned_param _))
  · next e heq =>
    rw [heq] at hright
    apply hhead.append
    split
    · exact aligned_expression hd hright
    · exact aligned_parenthesized (aligned_expression hd hright)
  · exact aligned_fail _

theorem aligned_rendering (hd : d.Quiets N) (h : p.Clean N) : p.rendering.Aligned d := by
  unfold rendering
  split
  · exact aligned_fail _
  · exact Operand.aligned_leftSide hd h.left
  · next op _ =>
    split
    · exact aligned_membership hd h op
    · exact aligned_comparison hd h op

end Predicate

theorem ConditionGroup.aligned_rendering (hd : d.Quiets N) {g : ConditionGroup}
    (h : g.Clean N) : g.rendering.Aligned d := by
  apply aligned_concat
  refine List.forall_mem_map.2 fun t ht => ?_
  cases t with
  | predicate p => exact Predicate.aligned_rendering hd (h _ (mem_atoms_of_mem_tokens ht rfl))
  | raw sql => exact aligned_text (h _ (mem_atoms_of_mem_tokens ht rfl))
  | connective c => exact aligned_text c.quiet_sql
  | opening => exact aligned_text (by decide)
  | closing => exact aligned_text (by decide)

theorem Join.aligned_rendering (hd : d.Quiets N) {j : Join} (h : j.Clean N) :
    j.rendering.Aligned d := by
  have halias : j.aliasRendering.Aligned d := by
    have ha := h.aliasName
    unfold aliasRendering
    split
    · exact aligned_empty
    · next a heq => exact (aligned_text (by decide)).append (aligned_name hd (ha a heq))
  -- the word between table and conditions is given by the caller and is clean by assumption
  have hunification : Text.Quiet (" " ++ j.unification ++ " ") :=
    (Text.Quiet.append (by decide) h.unification).append (by decide)
  have htable := (aligned_text j.direction.quiet_sql).append (aligned_name hd h.table)
  unfold rendering
  apply (htable.append halias).append
  split
  · exact aligned_empty
  · exact (aligned_text hunification).append (ConditionGroup.aligned_rendering hd h.conditions)

theorem OrderBy.aligned_rendering (hd : d.Quiets N) {o : OrderBy}
    (h : ∀ e ∈ o.entries, N e.1) : (OrderBy.rendering o).Aligned d := by
  apply aligned_sepBy (by decide)
  exact List.forall_mem_map.2 fun e he =>
    (aligned_name hd (h e he)).append (aligned_text e.2.quiet_sql)

namespace Query

theorem aligned_expressions (hd : d.Quiets N) {es : List Expression}
    (h : ∀ e ∈ es, e.Clean N) : (expressions es).Aligned d := by
  apply aligned_sepBy (by decide)
  exact List.forall_mem_map.2 fun e he => aligned_expression hd (h e he)

theorem aligned_conditionLine (hd : d.Quiets N) {keyword : String} (hk : Text.Quiet keyword)
    {g : ConditionGroup} (h : g.Clean N) : ∀ r ∈ conditionLine keyword g, r.Aligned d := by
  unfold conditionLine
  split
  · exact fun r hr => absurd hr List.not_mem_nil
  · exact List.forall_mem_singleton.2
      ((aligned_text hk).append (ConditionGroup.aligned_rendering hd h))

theorem aligned_numberLine {keyword : String} (hk : Text.Quiet keyword) (n : Option UInt64) :
    ∀ r ∈ numberLine keyword n, r.Aligned d := by
  cases n with
  | none => exact fun r hr => absurd hr List.not_mem_nil
  | some n =>
    have hnumber : Text.Quiet (toString n.toNat) :=
      Text.quiet_of_plain (Text.plain_toString n.toNat)
    exact List.forall_mem_singleton.2 (aligned_text (hk.append hnumber))

variable {q : Query}

theorem aligned_renderSelect (hd : d.Quiets N) (h : q.Clean N) : q.renderSelect.Aligned d := by
  have hcolumns : (columnsRendering q.columns).Aligned d := by
    unfold columnsRendering
    split
    · exact aligned_text (by decide)
    · exact aligned_expressions hd h.columns
  have hfirst : (text (if q.distinct then "SELECT DISTINCT " else "SELECT ")).Aligned d := by
    apply aligned_text
    split <;> decide
  have hjoins : (joinsRendering q.joins).Aligned d := by
    apply aligned_sepBy (by decide)
    exact List.forall_mem_map.2 fun j hj => Join.aligned_rendering hd (h.joins j hj)
  apply aligned_sepBy (by decide)
  intro r hr
  -- one case for each line of a selection, in order
  simp only [selectLines, List.mem_append, List.mem_cons, List.not_mem_nil, or_false,
    List.mem_ite_nil_left] at hr
  rcases hr with ((((((((rfl | rfl) | ⟨-, rfl⟩) | hr) | ⟨-, rfl⟩) | hr) | ⟨-, rfl⟩) | hr) | hr)
  · exact hfirst.append hcolumns
  · exact (aligned_text (by decide)).append (aligned_name hd h.table)
  · exact hjoins
  · exact aligned_conditionLine hd (by decide) h.conditions r hr
  · exact (aligned_text (by decide)).append (aligned_expressions hd h.groupBys)
  · exact aligned_conditionLine hd (by decide) h.havings r hr
  · exact (aligned_text (by decide)).append (OrderBy.aligned_rendering hd h.orderBys)
  · exact aligned_numberLine (by decide) q.limit r hr
  · exact aligned_numberLine (by decide) q.offset r hr

theorem aligned_renderInsert (hd : d.Quiets N) (h : q.Clean N) : q.renderInsert.Aligned d := by
  have hkeys : (sepBy ", " (q.values.keys.map name)).Aligned d := by
    apply aligned_sepBy (by decide)
    rw [OrderedMap.keys, List.map_map]
    exact List.forall_mem_map.2 fun e he => aligned_name hd (h.values e he).1
  have hvalues : (sepBy ", " (q.values.values.map Operand.assigned)).Aligned d := by
    apply aligned_sepBy (by decide)
    rw [OrderedMap.values, List.map_map]
    exact List.forall_mem_map.2 fun e he => Operand.aligned_assigned hd (h.values e he).2
  unfold renderInsert
  split
  · exact aligned_fail _
  -- the texts between the lists hold no quotes and no question marks
  · have hinto := (aligned_text (d := d) (t := "INSERT INTO ") (by decide)).append
      (aligned_name hd h.table)
    have hnames := (hinto.append (aligned_text (t := " (") (by decide))).append hkeys
    have hall := (hnames.append (aligned_text (t := ")\nVALUES (") (by decide))).append hvalues
    exact hall.append (aligned_text (by decide))

theorem aligned_renderUpdate (hd : d.Quiets N) (h : q.Clean N) : q.renderUpdate.Aligned d := by
  have hassignments :
      (sepBy ", " (q.values.entries.map fun e => assignment e.1 e.2)).Aligned d := by
    apply aligned_sepBy (by decide)
    refine List.forall_mem_map.2 fun e he => ?_
    obtain ⟨hname, hvalue⟩ := h.values e he
    exact ((aligned_name hd hname).append (aligned_text (by decide))).append
      (Operand.aligned_assigned hd hvalue)
  unfold renderUpdate
  split
  · exact aligned_fail _
  · apply aligned_sepBy (by decide)
    intro r hr
    simp only [List.mem_append, List.mem_cons, List.not_mem_nil, or_false] at hr
    -- the line of the table, that of the assignments, and the conditions
    rcases hr with (rfl | rfl) | hr
    · exact (aligned_text (by decide)).append (aligned_name hd h.table)
    · exact (aligned_text (by decide)).append hassignments
    · exact aligned_conditionLine hd (by decide) h.conditions r hr

theorem aligned_renderDelete (hd : d.Quiets N) (h : q.Clean N) : q.renderDelete.Aligned d := by
  apply aligned_sepBy (by decide)
  intro r hr
  rcases List.mem_cons.1 hr with rfl | hr
  · exact (aligned_text (by decide)).append (aligned_name hd h.table)
  · exact aligned_conditionLine hd (by decide) h.conditions r hr

theorem aligned_rendering (hd : d.Quiets N) (h : q.Clean N) : q.rendering.Aligned d := by
  unfold rendering
  split
  · exact aligned_renderSelect hd h
  · exact aligned_renderInsert hd h
  · exact aligned_renderUpdate hd h
  · exact aligned_renderDelete hd h

/-! ## Statements of clean queries -/

/-- The statement of a clean query is clean, it has one placeholder for each parameter, and with
    the parameters in place it is what the same rendering writes with each value put where its
    placeholder stands. -/
theorem interpolated_statement_of_clean (db : Option Database) (q : Query)
    (hq : q.Clean (Database.Admits db)) {s : Statement}
    (h : q.rendering.statement (Dialect.ofDatabase db) = .ok s) :
    Text.Clean s.sql ∧ Text.placeholders s.sql = s.params.length ∧
      s.interpolated (Dialect.ofDatabase db) =
        q.rendering.inlined (Dialect.ofDatabase db) := by
  have haligned := aligned_rendering (Dialect.quiets_ofDatabase db) hq
  -- all three facts hold of what has been written, which is the statement if nothing fails
  obtain ⟨⟨hclean, hcount⟩, hshown⟩ := interpolated_writeTo haligned
  unfold Rendering.statement at h
  split at h
  · obtain rfl := Except.ok.inj h
    exact ⟨hclean, hcount, hshown⟩
  · exact absurd h (by simp)

/-- Names that hold quotes and question marks, parameters in the columns, in a join and in the
    conditions, and a fragment with a question mark in a span. -/
theorem interpolated_statement_of_clean_quotes :
    let fragment : Expression := .sql "coalesce(x, ?, '?')" [.int 1]
    let link : Predicate := ⟨.key "t.a?", some "=", .value (.string "it's ?"), false⟩
    let member : Predicate := ⟨.key "id", some "in", .list [.int 2, .int 3], false⟩
    let join : Join := ⟨"o'clock", some "t", .left, "ON", ⟨.and, [.predicate link]⟩⟩
    let q : Query := { Query.select "we\"ird?" with
      columns := [fragment], joins := [join],
      conditions := ⟨.or, [.raw "note = 'why?'", .predicate member]⟩ }
    let d := Dialect.ofDatabase (some .postgres)
    let s : Statement :=
      ⟨"SELECT coalesce(x, ?, '?')\nFROM \"we\"\"ird?\"\nLEFT JOIN \"o'clock\" AS \"t\" ON " ++
        "\"t\".\"a?\" = ?\nWHERE note = 'why?' OR \"id\" IN (?, ?)",
        [.int 1, .string "it's ?", .int 2, .int 3]⟩
    q.Clean (Database.Admits (some .postgres)) ∧ q.rendering.statement d = .ok s ∧
      Text.Clean s.sql ∧ Text.placeholders s.sql = s.params.length ∧
        s.interpolated d = q.rendering.inlined d := by
  intro fragment link member join q d s
  have hfragment : Statement.Aligned ⟨"coalesce(x, ?, '?')", [.int 1]⟩ := by decide
  have hraw : Text.Quiet "note = 'why?'" := by decide
  have hon : Text.Quiet "ON" := by decide
  -- names may be anything, as they are quoted
  have hpredicate (n op : String) (o : Operand) (ho : o.Clean fun _ => True) :
      (Predicate.mk (.key n) (some op) o false).Clean fun _ => True :=
    ⟨trivial, ho, fun _ _ _ => trivial⟩
  have hjoin : join.Clean fun _ => True :=
    ⟨trivial, fun _ _ => trivial, hon, List.forall_mem_singleton.2 (hpredicate _ _ _ trivial)⟩
  have hconditions : q.conditions.Clean fun _ => True :=
    List.forall_mem_cons.2 ⟨hraw, List.forall_mem_singleton.2 (hpredicate _ _ _ trivial)⟩
  have hq : q.Clean (Database.Admits (some .postgres)) :=
    { table := trivial
      columns := List.forall_mem_singleton.2 hfragment
      values := nofun
      joins := List.forall_mem_singleton.2 hjoin
      conditions := hconditions
      groupBys := nofun
      havings := nofun
      orderBys := nofun }
  have hs : q.rendering.statement d = .ok s := by decide +kernel
  exact ⟨hq, hs, interpolated_statement_of_clean (some .postgres) q hq hs⟩

end Query

end aligned

end EntitySql
