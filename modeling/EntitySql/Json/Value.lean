import EntitySql.Json.Token

/-! # JSON values

    A JSON text is read from its tokens with a stack of the arrays and objects
    that are still open. `Reader` says what may come next. Objects keep all of
    their fields in the order of the text, so that who asks for a value decides
    what a repeated name means.

    Values are written without white space. A JSON string escapes double quotes,
    backslashes and the control characters below U+0020: five of those by a
    letter, the others by their code in four hexadecimal digits. Every other
    character stands for itself.
-/

namespace EntitySql

/-- A JSON value. Strings and names are kept as they stand between the quotes. -/
inductive Json where
  | null
  | bool (b : Bool)
  | number
  | string (lexeme : List Char)
  | array (items : List Json)
  | object (fields : List (List Char × Json))
  deriving Repr, Inhabited

namespace Json

/-- An array or object that is still open, with its members from the last to the first. -/
inductive Frame where
  | array (items : List Json)
  | field (fields : List (List Char × Json)) (name : List Char)
  deriving Inhabited

/-- What may come next, inside of the frames of a stack. -/
inductive Reader where
  | value (stack : List Frame)
  /-- An array has just been opened -/
  | items (stack : List Frame)
  /-- An object has just been opened -/
  | fields (stack : List Frame)
  | name (fields : List (List Char × Json)) (stack : List Frame)
  | colon (fields : List (List Char × Json)) (name : List Char) (stack : List Frame)
  /-- A value is complete -/
  | complete (value : Json) (stack : List Frame)
  deriving Inhabited

namespace Reader

/-- The first token of a value. -/
def start (stack : List Frame) : Token → Option Reader
  | .null => some (complete .null stack)
  | .bool b => some (complete (.bool b) stack)
  | .number => some (complete .number stack)
  | .string lexeme => some (complete (.string lexeme) stack)
  | .openArray => some (items stack)
  | .openObject => some (fields stack)
  | _ => none

/-- What may come after a token. -/
def step : Reader → Token → Option Reader
  | value stack, t => start stack t
  | items stack, .closeArray => some (complete (.array []) stack)
  | items stack, t => start (.array [] :: stack) t
  | fields stack, .closeObject => some (complete (.object []) stack)
  | fields stack, .string n => some (colon [] n stack)
  | name fs stack, .string n => some (colon fs n stack)
  | colon fs n stack, .colon => some (value (.field fs n :: stack))
  | complete v (.array vs :: stack), .comma => some (value (.array (v :: vs) :: stack))
  | complete v (.array vs :: stack), .closeArray =>
    some (complete (.array (v :: vs).reverse) stack)
  | complete v (.field fs n :: stack), .comma => some (name ((n, v) :: fs) stack)
  | complete v (.field fs n :: stack), .closeObject =>
    some (complete (.object ((n, v) :: fs).reverse) stack)
  | _, _ => none

/-- The value, if nothing is left open. -/
def finish : Reader → Option Json
  | complete v [] => some v
  | _ => none

end Reader

def ofTokens? (ts : List Token) : Option Json :=
  (ts.foldlM Reader.step (.value [])).bind Reader.finish

/-- The value of a JSON text. -/
def ofText? (s : String) : Option Json := (Scan.tokens .between s.toList).bind ofTokens?

/-! ## Reading values -/

/-- The text of a string. -/
def asText? : Json → Option String
  | string lexeme => (text? lexeme).map String.ofList
  | _ => none

def asBool? : Json → Option Bool
  | bool b => some b
  | _ => none

/-- The texts of an array of strings. -/
def asTexts? : Json → Option (List String)
  | array items => items.mapM asText?
  | _ => none

/-- The fields of an object, with the texts of their names. -/
def asFields? : Json → Option (List (String × Json))
  | object fields => fields.mapM fun f => (text? f.1).map fun n => (String.ofList n, f.2)
  | _ => none

/-! ## Written form -/

/-- A digit in base 16, in lower case. -/
def hexDigit (n : Nat) : Char := Nat.digitChar n

/-- One character inside of a JSON string. -/
def escape (c : Char) : List Char :=
  match c with
  | '"' => ['\\', '"']
  | '\\' => ['\\', '\\']
  | '\x08' => ['\\', 'b']
  | '\t' => ['\\', 't']
  | '\n' => ['\\', 'n']
  | '\x0c' => ['\\', 'f']
  | '\r' => ['\\', 'r']
  | c =>
    if c.toNat < 0x20 then ['\\', 'u', '0', '0', hexDigit (c.toNat / 16), hexDigit (c.toNat % 16)]
    else [c]

/-- A text as a JSON string. -/
def quoted (s : String) : String := String.ofList ('"' :: s.toList.flatMap escape ++ ['"'])

/-- Written values as a JSON array, without white space. -/
def bracketed (xs : List String) : String := "[" ++ ",".intercalate xs ++ "]"

/-- Written values under names as a JSON object, without white space. -/
def braced (fields : List (String × String)) : String :=
  "\x7b" ++ ",".intercalate (fields.map fun f => quoted f.1 ++ ":" ++ f.2) ++ "\x7d"

def truth (b : Bool) : String := if b then "true" else "false"

end Json

end EntitySql
