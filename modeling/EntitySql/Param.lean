import EntitySql.Decimal
import EntitySql.Json.Value

/-! # Parameters

    A `Param` is a value bound to a placeholder of a statement. Parameters are
    never written into the statement; their texts here serve logs and
    inspection.
-/

namespace EntitySql

/-- A value bound to a placeholder. -/
inductive Param where
  | null
  | bool (b : Bool)
  | int (i : Int64)
  | float (x : Double)
  | string (s : String)
  | bytes (bs : List UInt8)
  deriving DecidableEq, Repr, Inhabited

namespace Param

def kind : Param → String
  | null => "null"
  | bool _ => "bool"
  | int _ => "int"
  | float _ => "float"
  | string _ => "string"
  | bytes _ => "bytes"

def isNull : Param → Bool
  | null => true
  | _ => false

/-- The parameter of an optional value; no value is `NULL`. -/
def ofOption {α : Type} (param : α → Param) : Option α → Param
  | none => null
  | some a => param a

/-- Equality of values: floats compare as numbers, and kinds differ. -/
def equals : Param → Param → Bool
  | null, null => true
  | bool a, bool b => a == b
  | int a, int b => a == b
  | float a, float b => a.equals b
  | string a, string b => a == b
  | bytes a, bytes b => a == b
  | _, _ => false

/-! ## Texts -/

/-- In a literal a number has no exponent, and of two equally near decimals the upper one
    is taken. -/
def literalFormat : DecimalFormat := ⟨none, false, .up, "NaN", "inf", "-inf"⟩

/-- In JSON a number with a decimal exponent from -5 to 15 is written without one and shows
    that it is a float; of two equally near decimals the even one is taken. -/
def jsonFormat : DecimalFormat := ⟨some (-5, 16), true, .even, "null", "null", "null"⟩

/-- Two hexadecimal digits in upper case. -/
def byteDigits (b : UInt8) : List Char :=
  [(Nat.digitChar (b.toNat / 16)).toUpper, (Nat.digitChar (b.toNat % 16)).toUpper]

/-- The parameter as a literal of SQL, given how strings are quoted. -/
def literal (quote : String → String) : Param → String
  | null => "NULL"
  | bool b => if b then "TRUE" else "FALSE"
  | int i => toString i.toInt
  | float x => x.text literalFormat
  | string s => quote s
  | bytes bs => String.ofList ('X' :: '\'' :: bs.flatMap byteDigits ++ ['\''])

/-- The parameter as it is shown to people. -/
def display : Param → String
  | null => "NULL"
  | bool b => if b then "true" else "false"
  | int i => toString i.toInt
  | float x => x.text literalFormat
  | string s => s
  | bytes bs => "<" ++ toString bs.length ++ " bytes>"

def json : Param → String
  | null => "null"
  | bool b => Json.truth b
  | int i => toString i.toInt
  | float x => x.text jsonFormat
  | string s => Json.quoted s
  | bytes bs => Json.bracketed (bs.map fun b => toString b.toNat)

def jsonList (ps : List Param) : String := Json.bracketed (ps.map json)

theorem isNull_iff {p : Param} : p.isNull = true ↔ p = null := by
  cases p <;> simp [isNull]

end Param

end EntitySql
