import EntitySql.Text.Quoted

/-! # Lexemes of an SQL text

    A text is cut into *lexemes*: characters outside of quotes, and quoted spans
    as a whole. In a span two delimiters in a row stand for one and do not end
    it, so one has to look at the character behind a delimiter to know whether
    the span ends. Some databases let a backslash escape the character behind it
    in spans other than names, whatever that character is. A text may end inside
    of a span.

    A `?` that is a lexeme of its own is a placeholder. Reading a text marks
    each of its characters by whether it is one.
-/

namespace EntitySql.Text

/-- A part of an SQL text. -/
inductive Lexeme where
  /-- A character outside of spans -/
  | plain (c : Char)
  /-- A span, with what stands between its delimiters -/
  | span (quote : Char) (body : List Char)
  /-- A span in which the text ends, with what stands behind its delimiter -/
  | openSpan (quote : Char) (body : List Char)
  deriving DecidableEq, Repr

/-- A span that has been read in part: its delimiter and what has been read behind it, from the
    last character to the first. -/
abbrev PartialSpan := Char × List Char

/-- Whether a backslash escapes in spans with the delimiter, which it never does in names. -/
def escapesIn (escapes : Bool) (quote : Char) : Bool := escapes && quote != '\x60'

/-- The lexemes of a text, given the span that the reader is in, if it is in one. -/
def lexemesFrom (escapes : Bool) : Option PartialSpan → List Char → List Lexeme
  | none, [] => []
  | none, c :: cs =>
    if isQuote c then lexemesFrom escapes (some (c, [])) cs
    else .plain c :: lexemesFrom escapes none cs
  | some (quote, body), [] => [.openSpan quote body.reverse]
  | some (quote, body), [c] =>
    if c = quote then [.span quote body.reverse] else [.openSpan quote (c :: body).reverse]
  | some (quote, body), c :: d :: cs =>
    if c = quote then
      if d = quote then lexemesFrom escapes (some (quote, d :: c :: body)) cs
      else .span quote body.reverse :: lexemesFrom escapes none (d :: cs)
    else if escapesIn escapes quote = true ∧ c = '\\' then
      lexemesFrom escapes (some (quote, d :: c :: body)) cs
    else lexemesFrom escapes (some (quote, c :: body)) (d :: cs)

def lexemes (escapes : Bool) (s : String) : List Lexeme := lexemesFrom escapes none s.toList

namespace Lexeme

/-- The characters of a lexeme, each marked by whether it is a placeholder. -/
def marked : Lexeme → List (Char × Bool)
  | plain c => [(c, c == '?')]
  | span quote body => (quote :: body ++ [quote]).map (·, false)
  | openSpan quote body => (quote :: body).map (·, false)

/-- Whether the lexeme is a span other than a name and holds a backslash. -/
def hasBackslash : Lexeme → Bool
  | plain _ => false
  | span quote body => quote != '\x60' && body.contains '\\'
  | openSpan quote body => quote != '\x60' && body.contains '\\'

end Lexeme

/-- The characters of a text, each marked by whether it is a placeholder. -/
def read (escapes : Bool) (s : String) : List (Char × Bool) :=
  (lexemes escapes s).flatMap Lexeme.marked

/-! ## Laws -/

/-- What of the text has been read of a span. -/
def opening : Option PartialSpan → List Char
  | none => []
  | some (quote, body) => quote :: body.reverse

theorem opening_cons (quote c : Char) (body : List Char) :
    opening (some (quote, c :: body)) = opening (some (quote, body)) ++ [c] := by
  simp [opening]

theorem map_fst_marked_lexemesFrom (escapes : Bool) (state : Option PartialSpan)
    (cs : List Char) :
    ((lexemesFrom escapes state cs).flatMap Lexeme.marked).map Prod.fst =
      opening state ++ cs := by
  fun_induction lexemesFrom escapes state cs <;>
    simp_all [Lexeme.marked, opening, Function.comp_def]

/-- Reading leaves out no character and adds none. -/
theorem map_fst_read (escapes : Bool) (s : String) :
    (read escapes s).map Prod.fst = s.toList := by
  exact map_fst_marked_lexemesFrom escapes none s.toList

/-- Only question marks are placeholders. -/
theorem eq_of_mem_read {escapes : Bool} {s : String} {x : Char × Bool} (hx : x ∈ read escapes s)
    (hmark : x.2 = true) : x.1 = '?' := by
  obtain ⟨lexeme, -, hx⟩ := List.mem_flatMap.1 hx
  -- inside quotes nothing is marked, so the mark comes from a plain character
  cases lexeme with
  | plain c =>
    obtain rfl := List.mem_singleton.1 hx
    exact eq_of_beq hmark
  | span quote body =>
    obtain ⟨c, -, rfl⟩ := List.mem_map.1 hx
    exact absurd hmark Bool.false_ne_true
  | openSpan quote body =>
    obtain ⟨c, -, rfl⟩ := List.mem_map.1 hx
    exact absurd hmark Bool.false_ne_true

/-- What has been read of a span is part of its lexeme. -/
theorem exists_hasBackslash_of_mem {escapes : Bool} {quote : Char} {body : List Char}
    (hquote : quote ≠ '\x60') (hbody : '\\' ∈ body) (cs : List Char) :
    ∃ lexeme ∈ lexemesFrom escapes (some (quote, body)) cs, lexeme.hasBackslash = true := by
  generalize hstate : some (quote, body) = state
  fun_induction lexemesFrom escapes state cs generalizing body <;> cases hstate
  case case4 | case5 | case6 | case8 =>
    exact ⟨_, List.mem_cons_self, by simp [Lexeme.hasBackslash, hquote, hbody]⟩
  case case7 ih | case9 ih | case10 ih => exact ih (by simp [hbody]) rfl

/-- Escapes make no difference to a text without backslashes in its spans other than names. -/
theorem lexemesFrom_eq_of_forall {state : Option PartialSpan} {cs : List Char}
    (h : ∀ lexeme ∈ lexemesFrom true state cs, lexeme.hasBackslash = false) :
    lexemesFrom true state cs = lexemesFrom false state cs := by
  fun_induction lexemesFrom true state cs with
  | case1 => rfl
  | case2 c cs hc ih => rw [lexemesFrom, if_pos hc, ih h]
  | case3 c cs hc ih =>
    rw [lexemesFrom, if_neg hc, ih (List.forall_mem_cons.1 h).2]
  | case4 => rfl
  | case5 body c => rw [lexemesFrom, if_pos rfl]
  | case6 quote body c hc => rw [lexemesFrom, if_neg hc]
  | case7 body d cs ih => rw [lexemesFrom, if_pos rfl, if_pos rfl, ih h]
  | case8 body c d cs hd ih =>
    rw [ih (List.forall_mem_cons.1 h).2]
    generalize hrest : lexemesFrom false none (d :: cs) = rest
    rw [lexemesFrom, if_pos rfl, if_neg hd, hrest]
  | case9 quote body c d cs hc hescape ih =>
    -- the backslash would be seen in the lexeme of the span
    obtain ⟨hquote, rfl⟩ := hescape
    have hname : quote ≠ '\x60' := by simpa [escapesIn] using hquote
    have hbody : '\\' ∈ d :: '\\' :: body := by simp
    obtain ⟨lexeme, hmem, hback⟩ := exists_hasBackslash_of_mem hname hbody cs
    rw [h lexeme hmem] at hback
    cases hback
  | case10 quote body c d cs hc hescape ih =>
    have hstandard : ¬(escapesIn false quote = true ∧ c = '\\') := fun e => nomatch e.1
    rw [lexemesFrom, if_neg hc, if_neg hstandard, ih h]

theorem read_eq_of_forall {s : String}
    (h : ∀ lexeme ∈ lexemes true s, lexeme.hasBackslash = false) : read true s = read false s :=
  congrArg (List.flatMap Lexeme.marked) (lexemesFrom_eq_of_forall h)

end EntitySql.Text
