import EntitySql.Dialect

/-! # Statements

    A `Statement` is the text of an SQL statement with a `?` for each
    placeholder, together with the parameters of the placeholders from left to
    right. Writing a piece appends to both and reads neither, so what is written
    does not depend on what is already there (`write_eq_append`).

    For logs a statement can be shown with its parameters in place of the
    placeholders, each written as a literal. A `?` inside of a quoted span is
    not a placeholder and stays, and so does a placeholder for which there is
    no parameter left. The result is never executed.
-/

namespace EntitySql

/-- A text of SQL and the parameters of its placeholders. -/
@[ext] structure Statement where
  sql : String
  params : List Param
  deriving DecidableEq, Repr, Inhabited

namespace Statement

/-- Nothing written yet. -/
def empty : Statement := ⟨"", []⟩

def append (s t : Statement) : Statement := ⟨s.sql ++ t.sql, s.params ++ t.params⟩

instance : Append Statement := ⟨append⟩

@[simp] theorem sql_append (s t : Statement) : (s ++ t).sql = s.sql ++ t.sql := rfl

@[simp] theorem params_append (s t : Statement) : (s ++ t).params = s.params ++ t.params := rfl

@[simp] theorem append_empty (s : Statement) : s ++ empty = s :=
  Statement.ext (String.append_empty) (List.append_nil _)

@[simp] theorem empty_append (s : Statement) : empty ++ s = s :=
  Statement.ext (String.empty_append) (List.nil_append _)

theorem append_assoc (s t u : Statement) : s ++ t ++ u = s ++ (t ++ u) :=
  Statement.ext String.append_assoc (List.append_assoc _ _ _)

/-! ## Writing pieces -/

def add (d : Dialect) (s : Statement) : Piece → Statement
  | .text t => ⟨s.sql ++ t, s.params⟩
  | .name n => ⟨s.sql ++ d.quoteName n, s.params⟩
  | .param p => ⟨s.sql ++ "?", s.params ++ [p]⟩
  | .fragment t ps => ⟨s.sql ++ t, s.params ++ ps⟩

/-- Appends pieces from the first to the last. -/
def write (d : Dialect) (s : Statement) (ps : List Piece) : Statement := ps.foldl (add d) s

@[simp] theorem write_nil (d : Dialect) (s : Statement) : s.write d [] = s := rfl

@[simp] theorem write_cons (d : Dialect) (s : Statement) (p : Piece) (ps : List Piece) :
    s.write d (p :: ps) = (s.add d p).write d ps := rfl

theorem write_append (d : Dialect) (s : Statement) (ps qs : List Piece) :
    s.write d (ps ++ qs) = (s.write d ps).write d qs := by
  simp [write]

theorem add_eq_append (d : Dialect) (s : Statement) (p : Piece) :
    s.add d p = s ++ empty.add d p := by
  cases p <;> apply Statement.ext <;> simp [add, empty]

/-- What pieces append does not depend on what is there before them. -/
theorem write_eq_append (d : Dialect) (s : Statement) (ps : List Piece) :
    s.write d ps = s ++ empty.write d ps := by
  induction ps generalizing s with
  | nil => simp
  | cons p ps ih =>
    rw [write_cons, write_cons, ih, ih (empty.add d p), add_eq_append, append_assoc]

/-! ## Interpolation -/

/-- Replaces the placeholders from some state of the reader on. -/
def interpolateFrom (literal : Param → String) : Text.Span → List Char → List Param → List Char
  | _, [], _ => []
  | state, c :: cs, ps =>
    if state = none ∧ c = '?' then
      match ps with
      | [] => c :: interpolateFrom literal state cs []
      | p :: rest => (literal p).toList ++ interpolateFrom literal state cs rest
    else c :: interpolateFrom literal (state.step c) cs ps

/-- The text with its parameters in place of the placeholders. -/
def interpolated (d : Dialect) (s : Statement) : String :=
  String.ofList (interpolateFrom (Param.literal d.quoteValue) none s.sql.toList s.params)

/-- Without parameters nothing is replaced. -/
theorem interpolateFrom_nil (literal : Param → String) (state : Text.Span) (cs : List Char) :
    interpolateFrom literal state cs [] = cs := by
  induction cs generalizing state with
  | nil => rfl
  | cons c cs ih =>
    simp only [interpolateFrom]
    split <;> simp [ih]

end Statement

end EntitySql
