import EntitySql.Param
import EntitySql.SqlError
import EntitySql.Text.Quoted

/-! # Expressions and dialects

    An `Expression` can stand as a column, as a side of a condition or as a
    value: a text of SQL, a name with an optional alias, or a prepared
    fragment together with the parameters of its placeholders.

    A `Dialect` says how a database quotes names and string literals and which
    of its errors mean what. It may also render some expressions by itself.

    A qualified name such as `users.id` is quoted part by part, and the part
    `*` is left alone. String literals are quoted by doubled quotes, and MySQL
    doubles backslashes in them too. The `plain` dialect stands for the absence
    of a dialect: it leaves names as they are.
-/

namespace EntitySql

/-! ## Expressions -/

/-- A part of a statement that stands for a value. -/
inductive Expression where
  /-- Written as it is -/
  | raw (sql : String)
  /-- A column or another name such as `users.id`, and the alias it is selected under -/
  | key (name : String) (aliasName : Option String)
  /-- A prepared fragment and the parameters of its placeholders -/
  | sql (text : String) (params : List Param)
  deriving DecidableEq, Repr, Inhabited

namespace Expression

def keyName? : Expression → Option String
  | key name _ => some name
  | _ => none

/-- Whether the text of the expression opens a parenthesis at its start. -/
def startsParenthesis : Expression → Bool
  | raw text => text.toList.head? == some '('
  | sql text _ => text.toList.head? == some '('
  | key _ _ => false

def equals : Expression → Expression → Bool
  | raw a, raw b => a == b
  | key n a, key m b => n == m && a == b
  | sql s ps, sql t qs => s == t && List.isEqv ps qs Param.equals
  | _, _ => false

end Expression

/-! ## Pieces of a statement -/

/-- The smallest parts of a statement. -/
inductive Piece where
  /-- Written as it is -/
  | text (s : String)
  /-- A name, which the dialect quotes -/
  | name (n : String)
  /-- A placeholder and the parameter bound to it -/
  | param (p : Param)
  /-- Text that already holds the placeholders of the given parameters -/
  | fragment (sql : String) (params : List Param)
  deriving DecidableEq, Repr, Inhabited

/-- The pieces of an expression that the dialect does not render by itself. -/
def Expression.pieces : Expression → List Piece
  | raw text => [.text text]
  | key n none => [.name n]
  | key n (some a) => [.name n, .text " AS ", .name a]
  | sql text params => [.fragment text params]

/-! ## Dialects -/

/-- An error as a database reported it. -/
structure NativeError where
  code : Option String
  message : String
  deriving DecidableEq, Repr, Inhabited

/-- The error of a database that no dialect has a class for. -/
def NativeError.unclassified (e : NativeError) : SqlError := .native e.code e.message

/-- What a database does in its own way. -/
structure Dialect where
  /-- The name that selects the dialect, if there is one -/
  name : Option String
  quoteName : String → String
  quoteValue : String → String
  /-- The pieces of an expression that the dialect renders by itself -/
  render? : Expression → Option (List Piece)
  classify : NativeError → SqlError

namespace Dialect

def pieces (d : Dialect) (e : Expression) : List Piece := (d.render? e).getD e.pieces

/-! ## Quoting -/

def quotePart (q : Char) (part : List Char) : List Char :=
  if part = ['*'] then part else Text.enclose q part

/-- A qualified name, quoted part by part. -/
def quoteQualified (q : Char) (name : String) : String :=
  String.ofList (['.'].intercalate ((name.toList.splitOn '.').map (quotePart q)))

/-- A string literal with doubled quotes. -/
def quoteLiteral (value : String) : String := String.ofList (Text.enclose '\'' value.toList)

/-- A string literal in which the backslash is an escape character too. -/
def quoteEscapedLiteral (value : String) : String :=
  String.ofList (Text.enclose '\'' (Text.double '\\' value.toList))

/-! ## The shipped dialects -/

/-- No dialect: names stay as they are. -/
def plain : Dialect where
  name := none
  quoteName := id
  quoteValue := quoteLiteral
  render? := fun _ => none
  classify := NativeError.unclassified

def classifyPostgres (e : NativeError) : SqlError :=
  match e.code with
  | some "23505" => .uniqueViolation e.message
  | some "23503" => .foreignKeyViolation e.message
  | some "42601" => .malformedSql e.message
  | some "42P01" => .undefinedObject e.message
  | some "42703" => .undefinedObject e.message
  | _ => e.unclassified

def postgres : Dialect where
  name := some "postgres"
  quoteName := quoteQualified '"'
  quoteValue := quoteLiteral
  render? := fun _ => none
  classify := classifyPostgres

def classifyMysql (e : NativeError) : SqlError :=
  match e.code with
  | some "1062" => .uniqueViolation e.message
  | some "1451" => .foreignKeyViolation e.message
  | some "1452" => .foreignKeyViolation e.message
  | some "1064" => .malformedSql e.message
  | some "1146" => .undefinedObject e.message
  | some "1054" => .undefinedObject e.message
  | _ => e.unclassified

def mysql : Dialect where
  name := some "mysql"
  quoteName := quoteQualified '\x60'
  quoteValue := quoteEscapedLiteral
  render? := fun _ => none
  classify := classifyMysql

/-- Error codes of SQLite. The code 1 covers several errors, which only their texts tell
    apart. -/
def classifySqlite (e : NativeError) : SqlError :=
  match e.code with
  | some "2067" => .uniqueViolation e.message
  | some "1555" => .uniqueViolation e.message
  | some "787" => .foreignKeyViolation e.message
  | some "1" =>
    if Text.occurs "no such" e.message then .undefinedObject e.message
    else if Text.occurs "syntax error" e.message then .malformedSql e.message
    else e.unclassified
  | _ => e.unclassified

def sqlite : Dialect where
  name := some "sqlite"
  quoteName := quoteQualified '"'
  quoteValue := quoteLiteral
  render? := fun _ => none
  classify := classifySqlite

end Dialect

/-! ## Choosing a dialect -/

/-- The databases that a dialect is shipped for. -/
inductive Database where
  | postgres
  | mysql
  | sqlite
  deriving DecidableEq, Repr

namespace Database

def dialect : Database → Dialect
  | postgres => Dialect.postgres
  | mysql => Dialect.mysql
  | sqlite => Dialect.sqlite

/-- The database that a name in any case stands for. -/
def ofName? (name : String) : Option Database :=
  match String.ofList (Text.lower name.toList) with
  | "postgres" => some postgres
  | "postgresql" => some postgres
  | "pg" => some postgres
  | "mysql" => some mysql
  | "mariadb" => some mysql
  | "sqlite" => some sqlite
  | _ => none

/-- The database that a name in any case stands for; no other name is supported. -/
def ofName (name : String) : Except SqlError Database :=
  match ofName? name with
  | some database => .ok database
  | none => .error (.unsupported (.dialect name))

end Database

/-- The dialect to write for, given the database if there is one. -/
def Dialect.ofDatabase : Option Database → Dialect
  | none => plain
  | some database => database.dialect

/-- No shipped dialect renders an expression by itself. -/
theorem Dialect.render?_ofDatabase (db : Option Database) (e : Expression) :
    (ofDatabase db).render? e = none := by
  cases db with
  | none => rfl
  | some database => cases database <;> rfl

end EntitySql
