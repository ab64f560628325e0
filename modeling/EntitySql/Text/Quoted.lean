/-! # Quoted texts

    A quoted text stands between two delimiters, and a delimiter inside of it
    is written twice. Names and string literals of SQL are both written so.

    An SQL text is read one character at a time. Outside quotes each of `'`,
    `"` and the grave accent opens a span, and the same character closes it.
    A doubled quote closes a span and opens it again, so it leaves the reader
    inside. Backslashes have no meaning here. The reader's state is the
    character that opened the current span, if any.
-/

namespace EntitySql.Text

/-! ## Quoting by doubled delimiters -/

/-- Writes each occurrence of a character twice. -/
def double (q : Char) : List Char → List Char
  | [] => []
  | c :: cs => if c = q then q :: q :: double q cs else c :: double q cs

/-- A text between delimiters, with the delimiters inside of it doubled. -/
def enclose (q : Char) (cs : List Char) : List Char := q :: double q cs ++ [q]

@[simp] theorem double_nil (q : Char) : double q [] = [] := rfl

@[simp] theorem double_append (q : Char) (cs ds : List Char) :
    double q (cs ++ ds) = double q cs ++ double q ds := by
  induction cs with
  | nil => rfl
  | cons c cs ih => by_cases h : c = q <;> simp [double, h, ih]

/-- A text without the delimiter is left as it is. -/
theorem double_eq_self {q : Char} {cs : List Char} (h : q ∉ cs) : double q cs = cs := by
  induction cs with
  | nil => rfl
  | cons c cs ih =>
    have hc : c ≠ q := fun e => h (e ▸ List.mem_cons_self)
    simp [double, hc, ih fun m => h (List.mem_cons_of_mem _ m)]

/-- Each delimiter of the text occurs twice, all else once. -/
theorem count_double (q x : Char) (cs : List Char) :
    (double q cs).count x = (if x = q then 2 else 1) * cs.count x := by
  induction cs with
  | nil => simp
  | cons c cs ih => by_cases h : c = q <;> by_cases hx : x = c <;> grind [double]

/-! ## Quoted spans -/

/-- The three characters that open a quoted span. -/
def isQuote (c : Char) : Bool := c == '\'' || c == '"' || c == '\x60'

/-- The quote that opened the span the reader is in, `none` outside of spans. -/
abbrev Span := Option Char

namespace Span

/-- The state after one more character. -/
def step : Span → Char → Span
  | none, c => if isQuote c then some c else none
  | some q, c => if c = q then none else some q

/-- The state after a whole text. -/
def after (state : Span) (cs : List Char) : Span := cs.foldl step state

@[simp] theorem after_nil (state : Span) : after state [] = state := rfl

@[simp] theorem after_cons (state : Span) (c : Char) (cs : List Char) :
    after state (c :: cs) = after (step state c) cs := rfl

theorem after_append (state : Span) (cs ds : List Char) :
    after state (cs ++ ds) = after (after state cs) ds := by
  simp [after]

end Span

end EntitySql.Text
