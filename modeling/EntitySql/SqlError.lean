import EntitySql.Operator
import EntitySql.Text.Shown

/-! # Errors

    An `SqlError` names the cause for which a query could not be built, or the
    class of an error that a database reported. `SqlError.message` is the one
    place that gives the causes their wording.
-/

namespace EntitySql

/-- A request that is not supported. -/
inductive Unsupported where
  | operator (text : String)
  | direction (text : String)
  | operation (text : String)
  | dialect (text : String)
  | insertWithoutValues (table : String)
  | updateWithoutValues (table : String)
  deriving DecidableEq, Repr

/-- What a side of a condition or an assignment has to be. -/
inductive Expectation where
  | keyOnRight
  | keyOrExpressionOnLeft
  | singleValue
  | singleValueFor (operator : Operator)
  | listFor (operator : Operator)
  deriving DecidableEq, Repr

/-- A setting with a value that it cannot have. -/
inductive InvalidSetting where
  | dialect (key value : String)
  | flag (key value : String)
  deriving DecidableEq, Repr

/-- Why a query could not be built or was refused by the database. -/
inductive SqlError where
  | relationNotFound (entity relation path : String)
  | pathNotMapped (path : String)
  | unsupported (cause : Unsupported)
  | typeMismatch (expected : Expectation) (found : String)
  | entityNotFound (entity : String)
  | malformedSchema
  | invalidSetting (setting : InvalidSetting)
  | uniqueViolation (message : String)
  | foreignKeyViolation (message : String)
  | malformedSql (message : String)
  | undefinedObject (message : String)
  | native (code : Option String) (message : String)
  | inContext (context : String) (error : SqlError)
  deriving DecidableEq, Repr, Inhabited

/-! ## Wording -/

def Unsupported.message : Unsupported → String
  | operator text => "Unsupported operator '" ++ text ++ "'"
  | direction text => "Unsupported sort direction '" ++ text ++ "'"
  | operation text => "Unsupported query operation '" ++ text ++ "'"
  | dialect text => "Unknown SQL dialect '" ++ text ++ "'"
  | insertWithoutValues table => "INSERT into '" ++ table ++ "' without any values"
  | updateWithoutValues table => "UPDATE of '" ++ table ++ "' without any values"

def Expectation.message : Expectation → String
  | keyOnRight => "a key name on the right side"
  | keyOrExpressionOnLeft => "a key or expression on the left side"
  | singleValue => "a single value"
  | singleValueFor op => "a single value for operator '" ++ op.sql ++ "'"
  | listFor op => "a list of values for operator '" ++ op.sql ++ "'"

def InvalidSetting.message : InvalidSetting → String
  | dialect key value =>
    "Invalid env value " ++ value ++ " for " ++ key ++
      ": Must be one of 'postgres', 'mysql', 'sqlite', or 'none'"
  | flag key value =>
    "Invalid value '" ++ value ++ "' for " ++ key ++
      ": expected true/false, 1/0, yes/no or on/off"

namespace SqlError

def message : SqlError → String
  | relationNotFound entity relation path =>
    "Relation '" ++ relation ++ "' not found on entity '" ++ entity ++
      "' (while resolving '" ++ path ++ "')"
  | pathNotMapped path => "Relation path '" ++ path ++ "' is not part of the relation map"
  | unsupported cause => "Unsupported parameter: " ++ cause.message
  | typeMismatch expected found =>
    "Type mismatch: expected " ++ expected.message ++ ", found " ++ found
  | entityNotFound entity => "Entity '" ++ entity ++ "' is not known to the schema inspector"
  | malformedSchema => "Schema: not a schema document"
  | invalidSetting setting => "Configuration error: " ++ setting.message
  | uniqueViolation text => "Unique constraint violation: " ++ text
  | foreignKeyViolation text => "Foreign key violation: " ++ text
  | malformedSql text => "Syntax error: " ++ text
  | undefinedObject text => "Undefined object: " ++ text
  | native code text => "Native database error (" ++ Text.shownOption code ++ "): " ++ text
  | inContext context error => context ++ " " ++ error.message

/-- The errors that an error wraps, outermost first. -/
def sources : SqlError → List SqlError
  | inContext _ error => error :: error.sources
  | _ => []

end SqlError

end EntitySql
