import EntitySql.Proofs.Rendering
import EntitySql.Query

/-! # Selections put together from fragments

    A caller can render the clauses of a selection one by one, each call with
    the bindings of the calls before it, and put the texts together line by
    line. The first call that fails ends this.

    The result is that of the selection rendered as a whole: the same error, or
    the same text and parameters. What a rendering appends does not depend on
    the bindings at hand, so a call for two renderings in a row is a call for
    the first and then one for the second (`call_append`), and what stands on
    lines of its own may be rendered line by line (`call_sepBy`).
-/

namespace EntitySql

/-! ## Calls -/

/-- Calls over one list of bindings: the first error ends them, and what has been bound stays
    bound. -/
abbrev Calls := ExceptT SqlError (StateM (List Param))

/-- The text that calls lead to and all that they have bound, starting without bindings, or the
    first error. -/
def Calls.statement (calls : Calls String) : Except SqlError Statement :=
  match calls.run.run [] with
  | (.ok sql, params) => .ok ⟨sql, params⟩
  | (.error e, _) => .error e

namespace Rendering

variable (d : Dialect)

def call (r : Rendering) : Calls String :=
  ExceptT.mk (StateT.mk fun bindings => pure (r.fragment d bindings))

/-- What a fragment says and what it adds to the bindings do not depend on these. -/
theorem run_call (r : Rendering) (bindings : List Param) :
    (r.call d).run.run bindings =
      (match r.failure with
        | none => .ok (r.writeTo d .empty).sql
        | some e => .error e, bindings ++ (r.writeTo d .empty).params) := by
  -- what is appended does not depend on the bindings of the caller
  have hseeded : r.writeTo d ⟨"", bindings⟩ = ⟨"", bindings⟩ ++ r.writeTo d .empty :=
    r.writeTo_eq_append d _
  show r.fragment d bindings = _
  unfold fragment
  rw [hseeded]
  cases r.failure with
  | none => exact Prod.ext (congrArg Except.ok String.empty_append) rfl
  | some e => rfl

/-- After a call that succeeds the next ones see its bindings too. -/
theorem run_call_bind_of_ok {α : Type} {r : Rendering} (h : r.failure = none)
    (next : String → Calls α) (bindings : List Param) :
    (r.call d >>= next).run.run bindings =
      (next (r.writeTo d .empty).sql).run.run (bindings ++ (r.writeTo d .empty).params) := by
  rw [ExceptT.run_bind, StateT.run_bind, run_call, h]
  rfl

/-- After a call that fails there is none. -/
theorem run_call_bind_of_error {α : Type} {r : Rendering} {e : SqlError} (h : r.failure = some e)
    (next : String → Calls α) (bindings : List Param) :
    (r.call d >>= next).run.run bindings =
      (.error e, bindings ++ (r.writeTo d .empty).params) := by
  rw [ExceptT.run_bind, StateT.run_bind, run_call, h]
  rfl

/-- A call for two renderings in a row is a call for the first and then one for the second. -/
theorem call_append (r s : Rendering) :
    (r ++ s).call d = do
      let t ← r.call d
      let u ← s.call d
      return t ++ u := by
  apply ExceptT.ext
  apply StateT.ext
  intro bindings
  rw [run_call]
  cases hr : r.failure with
  | some e =>
    -- nothing of the second rendering is called after an error
    rw [run_call_bind_of_error d hr, append_of_error hr, hr]
  | none =>
    rw [run_call_bind_of_ok d hr, failure_append_of_ok hr, writeTo_append hr,
      Statement.params_append, ← List.append_assoc]
    cases hs : s.failure with
    | none =>
      rw [run_call_bind_of_ok d hs]
      rfl
    | some e => rw [run_call_bind_of_error d hs]

/-- A call that succeeds and binds nothing is only its text. -/
theorem call_of_silent {r : Rendering} (hok : r.failure = none)
    (hparams : (r.writeTo d .empty).params = []) : r.call d = pure (r.writeTo d .empty).sql := by
  apply ExceptT.ext
  apply StateT.ext
  intro bindings
  rw [run_call, hok, hparams, List.append_nil]
  rfl

theorem call_empty : empty.call d = pure "" := call_of_silent d rfl rfl

theorem call_text (s : String) : (text s).call d = pure s := by
  rw [call_of_silent d rfl rfl]
  exact congrArg pure String.empty_append

theorem call_name (n : String) : (name n).call d = pure (d.quoteName n) := by
  rw [call_of_silent d rfl rfl]
  exact congrArg pure String.empty_append

/-- A text before a rendering is put before the text of its call. -/
theorem call_text_append (s : String) (r : Rendering) :
    (text s ++ r).call d = do return s ++ (← r.call d) := by
  rw [call_append, call_text, pure_bind]

/-- Renderings with a text between each two may be rendered call by call. -/
theorem call_sepBy (sep : String) (rs : List Rendering) :
    (sepBy sep rs).call d = do
      let ts ← rs.mapM (call d)
      return sep.intercalate ts := by
  induction rs with
  | nil => rw [sepBy_nil, call_empty, List.mapM_nil, pure_bind, String.intercalate_nil]
  | cons r rs ih =>
    -- the separator stands between two calls and binds nothing
    cases rs with
    | nil => simp
    | cons s rs =>
      rw [sepBy_cons_cons, call_append, call_text_append, ih]
      simp [String.intercalate_cons_cons, String.append_assoc]

/-- A rendering as a whole is a call without bindings before it. -/
theorem statement_call (r : Rendering) : (r.call d).statement = r.statement d := by
  unfold Calls.statement statement
  rw [run_call]
  cases r.failure with
  | none => rfl
  | some e => rfl

end Rendering

/-! ## Selections -/

namespace Query

variable (d : Dialect)

/-- A line of its own, for which nothing is called if it is absent. -/
def lineUnless (absent : Bool) (line : Calls String) : Calls (List String) :=
  if absent then return [] else do return [← line]

/-- The line of a number, if there is one. -/
def limitLine (keyword : String) : Option UInt64 → List String
  | none => []
  | some n => [keyword ++ toString n.toNat]

/-- A selection put together from the fragments of its clauses. -/
def assembled (q : Query) : Calls String := do
  let columns ← (columnsRendering q.columns).call d
  let joins ← lineUnless q.joins.isEmpty ((joinsRendering q.joins).call d)
  let conditions ← lineUnless q.conditions.isEmpty do
    return "WHERE " ++ (← q.conditions.rendering.call d)
  let groups ← lineUnless q.groupBys.isEmpty do
    return "GROUP BY " ++ (← (expressions q.groupBys).call d)
  let havings ← lineUnless q.havings.isEmpty do
    return "HAVING " ++ (← q.havings.rendering.call d)
  let sortKeys ← lineUnless q.orderBys.isEmpty do
    return "ORDER BY " ++ (← (OrderBy.rendering q.orderBys).call d)
  let head := "SELECT " ++ (if q.distinct then "DISTINCT " else "") ++ columns
  let source := "FROM " ++ d.quoteName q.table
  return "\n".intercalate ([head, source] ++ joins ++ conditions ++ groups ++ havings ++ sortKeys ++
    limitLine "LIMIT " q.limit ++ limitLine "OFFSET " q.offset)

theorem mapM_call_line (absent : Bool) (r : Rendering) :
    (if absent then [] else [r]).mapM (Rendering.call d) = lineUnless absent (r.call d) := by
  unfold lineUnless
  cases absent with
  | true => exact List.mapM_nil
  | false => simp

theorem mapM_call_numberLine (keyword : String) (n : Option UInt64) :
    (numberLine keyword n).mapM (Rendering.call d) = pure (limitLine keyword n) := by
  cases n with
  | none => exact List.mapM_nil
  | some n => simp [numberLine, limitLine, Rendering.call_text]

/-- One call for a selection is the calls for its clauses. -/
theorem call_renderSelect (q : Query) : q.renderSelect.call d = q.assembled d := by
  have hhead : (Rendering.text (if q.distinct then "SELECT DISTINCT " else "SELECT ") ++
      columnsRendering q.columns).call d = do
        return "SELECT " ++ (if q.distinct then "DISTINCT " else "") ++
          (← (columnsRendering q.columns).call d) := by
    rw [Rendering.call_text_append]
    cases q.distinct <;> simp
  have hsource : (Rendering.text "FROM " ++ Rendering.name q.table).call d =
      pure ("FROM " ++ d.quoteName q.table) := by
    rw [Rendering.call_text_append, Rendering.call_name, pure_bind]
  unfold renderSelect selectLines conditionLine assembled
  rw [Rendering.call_sepBy]
  -- each line is rendered by its own call, in the order of the lines
  simp only [List.mapM_append, List.mapM_cons, List.mapM_nil, hhead, hsource, mapM_call_line,
    mapM_call_numberLine, Rendering.call_text_append]
  simp only [bind_assoc, pure_bind, List.append_assoc, List.cons_append, List.nil_append]

/-- A selection rendered as a whole is the same as one put together from fragments that are
    rendered one after the other over one list of bindings: the columns, the joins, the
    conditions, the grouping, its conditions and the sort keys, each but the columns only if
    there are any. It fails on the error of the first fragment that fails; else it has the text
    of their lines and all that they have bound. -/
theorem renderSelect_eq_assembled (q : Query) :
    q.renderSelect.statement d = (q.assembled d).statement := by
  rw [← call_renderSelect, Rendering.statement_call]

end Query

end EntitySql
