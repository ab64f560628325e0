import EntitySql.Dialect
import EntitySql.Text.Keyword

/-! # Settings

    Which dialect statements are written for, and whether logs show them with
    their parameters in place, is set by two variables of an environment. White
    space around a value is ignored, and so is the case of ASCII letters. A
    variable that is unset or blank has its default.
-/

namespace EntitySql

/-- How statements are written and logged. -/
structure Settings where
  database : Option Database
  logInterpolated : Bool
  deriving DecidableEq, Repr

namespace Settings

/-- Names as they are, and placeholders in logs. -/
def default : Settings := ⟨none, false⟩

/-- The variable that chooses the dialect. -/
def dialectVariable : String := "EMS_SQL_DIALECT"

/-- The variable that asks for parameters in place of placeholders. -/
def interpolationVariable : String := "EMS_SQL_LOG_INTERPOLATED"

/-- The value of a variable without white space around it; an unset one is blank. -/
def value (env : String → Option String) (key : String) : String :=
  Text.trim ((env key).getD "")

/-- The database that a value names. -/
def readDatabase (key value : String) : Except SqlError (Option Database) :=
  if value = "" then .ok none
  else if Text.sameButAsciiCase value "none" then .ok none
  else match Database.ofName? value with
    | some database => .ok (some database)
    | none => .error (.invalidSetting (.dialect key value))

/-- The truth value that a value spells. -/
def readFlag (key value : String) : Except SqlError Bool :=
  if value = "" then .ok false
  else if ["true", "1", "yes", "on"].any (Text.sameButAsciiCase value) then .ok true
  else if ["false", "0", "no", "off"].any (Text.sameButAsciiCase value) then .ok false
  else .error (.invalidSetting (.flag key value))

/-- The settings of an environment. -/
def ofEnvironment (env : String → Option String) : Except SqlError Settings := do
  let database ← readDatabase dialectVariable (value env dialectVariable)
  let logInterpolated ← readFlag interpolationVariable (value env interpolationVariable)
  return ⟨database, logInterpolated⟩

def dialect (s : Settings) : Dialect := Dialect.ofDatabase s.database

end Settings

end EntitySql
