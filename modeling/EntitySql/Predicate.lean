import EntitySql.Rendering

/-! # Predicates

    A `Predicate` compares two operands, as in `address.city = ?`, or consists
    of its left side alone. Its operator is kept as given and read when the
    predicate is rendered.

    A right side given as a string may be marked as a key; it is then a name to
    be quoted and never a parameter. Comparing with `NULL` becomes a test for
    `NULL`, and membership in a list binds each element of the list. Nothing is
    a member of the empty list, which no database can be asked.
-/

namespace EntitySql

/-! ## Operands -/

/-- One side of a predicate, or a value that is assigned. -/
inductive Operand where
  /-- A column, possibly qualified or reached by a relation path -/
  | key (name : String)
  | expression (e : Expression)
  | value (p : Param)
  | list (ps : List Param)
  deriving DecidableEq, Repr, Inhabited

namespace Operand

def kind : Operand → String
  | key _ => "key"
  | expression _ => "expression"
  | value _ => "value"
  | list _ => "list"

def equals : Operand → Operand → Bool
  | key a, key b => a == b
  | expression a, expression b => a.equals b
  | value a, value b => a.equals b
  | list ps, list qs => List.isEqv ps qs Param.equals
  | _, _ => false

/-- The left side of a predicate: a key or an expression. -/
def leftSide : Operand → Rendering
  | key name => .name name
  | expression e => .expression e
  | value p => .fail (.typeMismatch .keyOrExpressionOnLeft (value p).kind)
  | list ps => .fail (.typeMismatch .keyOrExpressionOnLeft (list ps).kind)

/-- A value that is assigned to a column. Expressions bring their own parameters along. -/
def assigned : Operand → Rendering
  | key name => .name name
  | expression e => .expression e
  | value p => .param p
  | list ps => .fail (.typeMismatch .singleValue (list ps).kind)

end Operand

/-! ## Predicates -/

/-- A comparison of two operands, or its left operand alone. -/
structure Predicate where
  left : Operand
  operator : Option String
  right : Operand
  rightIsKey : Bool
  deriving DecidableEq, Repr, Inhabited

namespace Predicate

def ofValue (left operator : String) (value : Param) : Predicate :=
  ⟨.key left, some operator, .value value, false⟩

def ofKeys (left operator right : String) : Predicate :=
  ⟨.key left, some operator, .value (.string right), true⟩

/-- The left side alone, such as a column that holds truth values. -/
def bare (left : Operand) : Predicate := ⟨left, none, .value .null, false⟩

def equals (p q : Predicate) : Bool :=
  p.left.equals q.left && p.operator == q.operator && p.right.equals q.right &&
    p.rightIsKey == q.rightIsKey

/-- The operator, if there is one. Other texts than those of operators are not supported. -/
def readOperator (p : Predicate) : Except SqlError (Option Operator) :=
  match p.operator with
  | none => .ok none
  | some text =>
    match Operator.ofText? text with
    | some op => .ok (some op)
    | none => .error (.unsupported (.operator text))

/-- The name on the right side, if that side is to be rendered as a name. A right side marked as
    a key has to be a key, a string or an expression. -/
def rightKey (p : Predicate) : Except SqlError (Option String) :=
  match p.right, p.rightIsKey with
  | .key name, _ => .ok (some name)
  | .value (.string name), true => .ok (some name)
  | .value v, true => .error (.typeMismatch .keyOnRight v.kind)
  | .list ps, true => .error (.typeMismatch .keyOnRight (Operand.list ps).kind)
  | _, _ => .ok none

/-! ## Rendering -/

/-- The right side of an operator that compares with a single value. -/
def rightSide (p : Predicate) (op : Operator) : Rendering :=
  match p.rightKey with
  | .error e => .fail e
  | .ok (some name) => .name name
  | .ok none =>
    match p.right with
    | .key name => .name name
    | .expression e => .expression e
    | .value v => .param v
    | .list ps => .fail (.typeMismatch (.singleValueFor op) (Operand.list ps).kind)

/-- A comparison by an operator other than membership. -/
def comparison (p : Predicate) (op : Operator) : Rendering :=
  match p.right, op.nullTest? with
  | .value .null, some test => p.left.leftSide ++ .text (" " ++ test)
  | _, _ => p.left.leftSide ++ .text (" " ++ op.sql ++ " ") ++ p.rightSide op

/-- The left side and the opening of the values it is looked up in. -/
def membershipHead (p : Predicate) (op : Operator) : Rendering :=
  p.left.leftSide ++ .text (" " ++ op.sql ++ " ")

def parenthesized (r : Rendering) : Rendering := .text "(" ++ r ++ .text ")"

/-- Membership in a list, in the rows of an expression, or in a single value. -/
def membership (p : Predicate) (op : Operator) : Rendering :=
  match p.right with
  | .list [] => .text (if op = .notIn then "1 = 1" else "1 = 0")
  | .list ps => p.membershipHead op ++ parenthesized (.sepBy ", " (ps.map .param))
  | .value .null =>
    p.left.leftSide ++ .text (if op = .notIn then " IS NOT NULL" else " IS NULL")
  | .value v => p.membershipHead op ++ parenthesized (.param v)
  | .expression e =>
    p.membershipHead op ++
      (if e.startsParenthesis then .expression e else parenthesized (.expression e))
  | .key name => .fail (.typeMismatch (.listFor op) (Operand.key name).kind)

/-- The predicate as a condition of SQL. -/
def rendering (p : Predicate) : Rendering :=
  match p.readOperator with
  | .error e => .fail e
  | .ok none => p.left.leftSide
  | .ok (some op) => if op.isMembership then p.membership op else p.comparison op

end Predicate

end EntitySql
