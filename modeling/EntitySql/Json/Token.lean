/-! # JSON tokens

    A JSON text is cut into tokens one character at a time, in one pass and
    without looking ahead: a `Scan` says what the characters since the last
    token are part of. The token of a number ends before the first character
    that cannot continue it.

    The token of a string keeps what stands between the quotes. That its
    escapes have the right form is checked here; which text they stand for is
    asked by `text?`, which fails where half of a surrogate pair stands alone.
    The value of a number is not kept.
-/

namespace EntitySql.Json

/-! ## Tokens -/

inductive Token where
  | openObject
  | closeObject
  | openArray
  | closeArray
  | colon
  | comma
  | null
  | bool (b : Bool)
  | number
  | string (lexeme : List Char)
  deriving DecidableEq, Repr, Inhabited

/-- The part of a number that its characters so far have reached. -/
inductive NumberPart where
  | minus
  | zero
  | whole
  | point
  | fraction
  | mark
  | sign
  | exponent
  deriving DecidableEq, Repr, Inhabited

namespace NumberPart

/-- Whether a number may end here. -/
def accepts : NumberPart → Bool
  | zero => true
  | whole => true
  | fraction => true
  | exponent => true
  | _ => false

/-- Whether a character marks an exponent. -/
def isMark (c : Char) : Bool := c == 'e' || c == 'E'

def isSign (c : Char) : Bool := c == '+' || c == '-'

/-- The part that a character leads to, if it can continue the number. -/
def step (part : NumberPart) (c : Char) : Option NumberPart :=
  match part with
  | minus => if c = '0' then some zero else if c.isDigit then some whole else none
  | zero => if c = '.' then some point else if isMark c then some mark else none
  | whole =>
    if c.isDigit then some whole else if c = '.' then some point
    else if isMark c then some mark else none
  | point => if c.isDigit then some fraction else none
  | fraction => if c.isDigit then some fraction else if isMark c then some mark else none
  | mark => if isSign c then some sign else if c.isDigit then some exponent else none
  | sign => if c.isDigit then some exponent else none
  | exponent => if c.isDigit then some exponent else none

end NumberPart

/-! ## Scanning -/

/-- What the characters since the last token are part of. -/
inductive Scan where
  | between
  /-- A word, of which these characters are still to come -/
  | word (rest : List Char) (token : Token)
  | number (part : NumberPart)
  /-- A string, with its characters so far from the last to the first -/
  | string (seen : List Char)
  | escape (seen : List Char)
  /-- An escape by code, with the count of digits still to come -/
  | code (seen : List Char) (digits : Nat)
  deriving DecidableEq, Repr, Inhabited

/-- The four characters that may stand between tokens. -/
def isSpace (c : Char) : Bool := c == ' ' || c == '\t' || c == '\n' || c == '\r'

/-- The characters that an escape may consist of, after the backslash. -/
def isEscape (c : Char) : Bool :=
  c == '"' || c == '\\' || c == '/' || c == 'b' || c == 'f' || c == 'n' || c == 'r' || c == 't'

/-- The value of a hexadecimal digit. -/
def hexValue? (c : Char) : Option Nat :=
  if c.isDigit then some (c.toNat - 48)
  else if 'a' ≤ c ∧ c ≤ 'f' then some (c.toNat - 87)
  else if 'A' ≤ c ∧ c ≤ 'F' then some (c.toNat - 55)
  else none

namespace Scan

/-- The first character of a token, or a character between tokens. -/
def start (c : Char) : Option (List Token × Scan) :=
  match c with
  | '\x7b' => some ([.openObject], between)
  | '\x7d' => some ([.closeObject], between)
  | '[' => some ([.openArray], between)
  | ']' => some ([.closeArray], between)
  | ':' => some ([.colon], between)
  | ',' => some ([.comma], between)
  | '"' => some ([], string [])
  | 'n' => some ([], word ['u', 'l', 'l'] .null)
  | 't' => some ([], word ['r', 'u', 'e'] (.bool true))
  | 'f' => some ([], word ['a', 'l', 's', 'e'] (.bool false))
  | '-' => some ([], number .minus)
  | '0' => some ([], number .zero)
  | c =>
    if c.isDigit then some ([], number .whole)
    else if isSpace c then some ([], between)
    else none

/-- The tokens that a character completes, and what comes after it. -/
def step (scan : Scan) (c : Char) : Option (List Token × Scan) :=
  match scan with
  | between => start c
  | word [] _ => none
  | word (d :: ds) token =>
    if c = d then some (if ds.isEmpty then ([token], between) else ([], word ds token)) else none
  | number part =>
    match part.step c with
    | some next => some ([], number next)
    | none => if part.accepts then (start c).map fun r => (.number :: r.1, r.2) else none
  | string seen =>
    if c = '"' then some ([.string seen.reverse], between)
    else if c = '\\' then some ([], escape (c :: seen))
    else if c.toNat < 0x20 then none
    else some ([], string (c :: seen))
  | escape seen =>
    if isEscape c then some ([], string (c :: seen))
    else if c = 'u' then some ([], code (c :: seen) 4)
    else none
  | code seen digits =>
    if (hexValue? c).isSome then
      some ([], if digits ≤ 1 then string (c :: seen) else code (c :: seen) (digits - 1))
    else none

/-- The tokens that the end of the text completes. -/
def finish : Scan → Option (List Token)
  | between => some []
  | number part => if part.accepts then some [.number] else none
  | _ => none

/-- The tokens of a text, from some state on. -/
def tokens (scan : Scan) : List Char → Option (List Token)
  | [] => scan.finish
  | c :: cs => do
    let (ts, next) ← scan.step c
    let rest ← tokens next cs
    return ts ++ rest

end Scan

/-! ## The text of a string -/

/-- The number of four hexadecimal digits. -/
def code? (a b c d : Char) : Option Nat := do
  return ((← hexValue? a) * 16 + (← hexValue? b)) * 256 + (← hexValue? c) * 16 + (← hexValue? d)

/-- Whether a number is the first half of a surrogate pair. -/
def isHighSurrogate (n : Nat) : Bool := 0xD800 ≤ n && n ≤ 0xDBFF

/-- Whether a number is the second half of a surrogate pair. -/
def isLowSurrogate (n : Nat) : Bool := 0xDC00 ≤ n && n ≤ 0xDFFF

def surrogatePair (high low : Nat) : Char :=
  Char.ofNat (0x10000 + (high - 0xD800) * 0x400 + (low - 0xDC00))

/-- The character that a letter after a backslash stands for. -/
def unescape (c : Char) : Char :=
  match c with
  | 'b' => '\x08'
  | 'f' => '\x0c'
  | 'n' => '\n'
  | 'r' => '\r'
  | 't' => '\t'
  | c => c

/-- The characters that stand between the quotes of a string. -/
def text? : List Char → Option (List Char)
  | [] => some []
  | '\\' :: 'u' :: a :: b :: c :: d :: rest =>
    match code? a b c d with
    | none => none
    | some n =>
      if isHighSurrogate n then
        match rest with
        | '\\' :: 'u' :: e :: f :: g :: h :: rest' =>
          match code? e f g h with
          | none => none
          | some m => if isLowSurrogate m then (text? rest').map (surrogatePair n m :: ·) else none
        | _ => none
      else if isLowSurrogate n then none
      else (text? rest).map (Char.ofNat n :: ·)
  | '\\' :: c :: rest => (text? rest).map (unescape c :: ·)
  | c :: rest => (text? rest).map (c :: ·)

end EntitySql.Json
