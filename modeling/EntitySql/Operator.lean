import EntitySql.Text.Keyword

/-! # Comparison operators

    A condition may compare with one of fifteen operators. They are written
    into the statement as they are, so no other text is accepted as one. Case
    and the amount of white space between the words of an operator do not
    matter.
-/

namespace EntitySql

/-- The operators that a condition may use. -/
inductive Operator where
  | equal
  | bangEqual
  | lessGreater
  | less
  | lessEqual
  | greater
  | greaterEqual
  | like
  | notLike
  | ilike
  | notIlike
  | isIn
  | notIn
  | is
  | isNot
  deriving DecidableEq, Repr

namespace Operator

def sql : Operator → String
  | equal => "="
  | bangEqual => "!="
  | lessGreater => "<>"
  | less => "<"
  | lessEqual => "<="
  | greater => ">"
  | greaterEqual => ">="
  | like => "LIKE"
  | notLike => "NOT LIKE"
  | ilike => "ILIKE"
  | notIlike => "NOT ILIKE"
  | isIn => "IN"
  | notIn => "NOT IN"
  | is => "IS"
  | isNot => "IS NOT"

def all : List Operator :=
  [equal, bangEqual, lessGreater, less, lessEqual, greater, greaterEqual, like, notLike, ilike,
    notIlike, isIn, notIn, is, isNot]

theorem mem_all (op : Operator) : op ∈ all := by
  cases op <;> decide

theorem sql_injective {a b : Operator} (h : a.sql = b.sql) : a = b := by
  revert h
  cases a <;> cases b <;> simp [sql]

/-- The operator that a text spells, in any case and with any white space. -/
def ofText? (s : String) : Option Operator :=
  all.find? fun op => op.sql == Text.keywords s

/-- A text is read as the operator whose spelling it has in canonical form. -/
theorem ofText?_eq_some_iff {s : String} {op : Operator} :
    ofText? s = some op ↔ Text.keywords s = op.sql := by
  constructor
  · intro h
    have := List.find?_some h
    simp only [beq_iff_eq] at this
    exact this.symm
  · intro h
    -- some operator is found, and no two of them are spelled alike
    cases hf : ofText? s with
    | none =>
      have := List.find?_eq_none.1 hf op (mem_all op)
      simp [h] at this
    | some a =>
      have := List.find?_some hf
      simp only [beq_iff_eq] at this
      exact congrArg some (sql_injective (this.trans h))

/-- What a comparison with `NULL` becomes. -/
def nullTest? : Operator → Option String
  | equal => some "IS NULL"
  | is => some "IS NULL"
  | bangEqual => some "IS NOT NULL"
  | lessGreater => some "IS NOT NULL"
  | isNot => some "IS NOT NULL"
  | _ => none

/-- Whether the right side is a set of values. -/
def isMembership : Operator → Bool
  | isIn => true
  | notIn => true
  | _ => false

end Operator

end EntitySql
