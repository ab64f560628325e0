import EntitySql.Text.Keyword
import EntitySql.Text.Quoted

/-! # Parentheses of an SQL text

    Parentheses count where they stand outside of quoted spans. Databases differ
    in how a quote is written inside of a span, so a `SpanReader` says which
    characters a span takes.

    A text is *balanced* if it ends outside of spans and each parenthesis is
    closed, none before it is opened. It is a *group* if it begins with a
    parenthesis and ends where that one is closed. So a group is a balanced
    text between two parentheses (`isGroup_iff`), but a balanced text that
    begins with a parenthesis need not be a group: it is a group with another
    balanced text behind it (`exists_group_append`).
-/

namespace EntitySql

/-! ## Reading spans -/

/-- A way to read quoted spans: what state a character leads to, and which state is the one
    outside of spans. -/
structure SpanReader where
  State : Type
  outside : State
  step : State → Char → State
  [decEq : DecidableEq State]

namespace SpanReader

attribute [instance] decEq

/-- A quote in a span is doubled. -/
def doubling : SpanReader where
  State := Text.Span
  outside := none
  step := Text.Span.step

/-- A quote in a span is doubled, or in a string escaped by a backslash. The state is the quote
    that opened the span, and whether a backslash has just been read. -/
def escaping : SpanReader where
  State := Option (Char × Bool)
  outside := none
  step
    | none, c => if Text.isQuote c then some (c, false) else none
    | some (q, true), _ => some (q, false)
    | some (q, false), c => if c = q then none else some (q, c == '\\' && q != '\x60')

variable (R : SpanReader)

/-! ## Counting parentheses -/

/-- What a character is to the parentheses of a text. -/
inductive Mark where
  | opening
  | closing
  | neither
  deriving DecidableEq

/-- Parentheses count outside of spans. -/
def mark (s : R.State) (c : Char) : Mark :=
  if s = R.outside then if c = '(' then .opening else if c = ')' then .closing else .neither
  else .neither

/-- The state after a text and the number of open parentheses, starting with some of both; nothing
    if a parenthesis is closed that has not been opened. -/
def nesting : R.State → Nat → List Char → Option (R.State × Nat)
  | s, n, [] => some (s, n)
  | s, n, c :: cs =>
    match R.mark s c, n with
    | .opening, n => nesting s (n + 1) cs
    | .closing, 0 => none
    | .closing, n + 1 => nesting s n cs
    | .neither, n => nesting (R.step s c) n cs

/-- All spans are closed, and so is each parenthesis outside of them, none before it is opened. -/
def Balanced (cs : List Char) : Prop := R.nesting R.outside 0 cs = some (R.outside, 0)

instance (cs : List Char) : Decidable (R.Balanced cs) := inferInstanceAs (Decidable (_ = _))

/-- What follows the parenthesis that closes one in front of the text, if there is one. The number
    is that of parentheses that have been opened since. -/
def afterClosing : R.State → Nat → List Char → Option (List Char)
  | _, _, [] => none
  | s, n, c :: cs =>
    match R.mark s c, n with
    | .opening, n => afterClosing s (n + 1) cs
    | .closing, 0 => some cs
    | .closing, n + 1 => afterClosing s n cs
    | .neither, n => afterClosing (R.step s c) n cs

/-- The text begins with a parenthesis, and the one that closes it is the last character. -/
def IsGroup (cs : List Char) : Prop :=
  cs.head? = some '(' ∧ R.afterClosing R.outside 0 cs.tail = some []

instance (cs : List Char) : Decidable (R.IsGroup cs) := inferInstanceAs (Decidable (_ ∧ _))

variable {R} {s t : R.State} {n m : Nat} {c : Char} {cs rest : List Char}

theorem mark_open : R.mark R.outside '(' = .opening := by simp [mark]

theorem mark_close : R.mark R.outside ')' = .closing := by simp [mark]

theorem of_mark_closing (h : R.mark s c = .closing) : s = R.outside ∧ c = ')' := by
  unfold mark at h
  grind

/-- A text that closes no parenthesis but its own is passed over in the search for the one that
    closes the first. -/
theorem afterClosing_append (h : R.nesting s n cs = some (t, m)) (ds : List Char) :
    R.afterClosing s n (cs ++ ds) = R.afterClosing t m ds := by
  -- the cases are the end, an opening, a closing with none open and with some, and the rest
  fun_induction R.nesting s n cs with
  | case1 s n =>
    obtain ⟨rfl, rfl⟩ := Prod.mk.inj (Option.some.inj h)
    rfl
  | case2 s c cs n hmark ih =>
    rw [← ih h]
    simp only [List.cons_append, afterClosing, hmark]
  | case3 => exact absurd h nofun
  | case4 s c cs n hmark ih =>
    rw [← ih h]
    simp only [List.cons_append, afterClosing, hmark]
  | case5 s c cs n hmark ih =>
    rw [← ih h]
    simp only [List.cons_append, afterClosing, hmark]

theorem exists_of_afterClosing (h : R.afterClosing s n cs = some rest) :
    ∃ body, cs = body ++ ')' :: rest ∧ R.nesting s n body = some (R.outside, 0) := by
  fun_induction R.afterClosing s n cs with
  | case1 => exact absurd h nofun
  | case2 s c cs n hmark ih =>
    obtain ⟨body, rfl, hbody⟩ := ih h
    exact ⟨c :: body, rfl, by simp only [nesting, hmark, hbody]⟩
  | case3 s c cs hmark =>
    -- this is the parenthesis that is searched for
    obtain ⟨rfl, rfl⟩ := of_mark_closing hmark
    obtain rfl := Option.some.inj h
    exact ⟨[], rfl, rfl⟩
  | case4 s c cs n hmark ih =>
    obtain ⟨body, rfl, hbody⟩ := ih h
    exact ⟨c :: body, rfl, by simp only [nesting, hmark, hbody]⟩
  | case5 s c cs n hmark ih =>
    obtain ⟨body, rfl, hbody⟩ := ih h
    exact ⟨c :: body, rfl, by simp only [nesting, hmark, hbody]⟩

/-- A parenthesis is closed behind a balanced text. -/
theorem afterClosing_eq_some_iff :
    R.afterClosing R.outside 0 cs = some rest ↔
      ∃ body, cs = body ++ ')' :: rest ∧ R.Balanced body := by
  constructor
  · exact exists_of_afterClosing
  · rintro ⟨body, rfl, hbody⟩
    rw [afterClosing_append hbody]
    simp only [afterClosing, mark_close]

/-- Where all open parentheses are closed, so is the first of them, and what follows is balanced. -/
theorem exists_afterClosing (h : R.nesting s (n + 1) cs = some (R.outside, 0)) :
    ∃ rest, R.afterClosing s n cs = some rest ∧ R.Balanced rest := by
  fun_induction R.afterClosing s n cs with
  | case1 s n => exact absurd (congrArg Prod.snd (Option.some.inj h)) (Nat.succ_ne_zero n)
  | case2 s c cs n hmark ih =>
    simp only [nesting, hmark] at h
    exact ih h
  | case3 s c cs hmark =>
    -- here the outermost group closes, and what follows it is the rest
    obtain ⟨rfl, -⟩ := of_mark_closing hmark
    simp only [nesting, hmark] at h
    exact ⟨cs, rfl, h⟩
  | case4 s c cs n hmark ih =>
    simp only [nesting, hmark] at h
    exact ih h
  | case5 s c cs n hmark ih =>
    simp only [nesting, hmark] at h
    exact ih h

/-! ## Groups -/

/-- A group is a balanced text between two parentheses. -/
theorem isGroup_iff : R.IsGroup cs ↔ ∃ body, cs = '(' :: body ++ [')'] ∧ R.Balanced body := by
  constructor
  · rintro ⟨hhead, hclosed⟩
    obtain ⟨tail, rfl⟩ := List.head?_eq_some_iff.1 hhead
    obtain ⟨body, hbody, hbalanced⟩ := afterClosing_eq_some_iff.1 hclosed
    exact ⟨body, congrArg ('(' :: ·) hbody, hbalanced⟩
  · rintro ⟨body, rfl, hbalanced⟩
    exact ⟨rfl, afterClosing_eq_some_iff.2 ⟨body, rfl, hbalanced⟩⟩

/-- A balanced text that begins with a parenthesis is a group and what follows it. -/
theorem exists_group_append (h : R.Balanced cs) (hhead : cs.head? = some '(') :
    ∃ group more, cs = group ++ more ∧ R.IsGroup group ∧ R.Balanced more := by
  obtain ⟨tail, rfl⟩ := List.head?_eq_some_iff.1 hhead
  have hopen : R.nesting R.outside (0 + 1) tail = some (R.outside, 0) := by
    rw [← h]
    simp only [nesting, mark_open]
  obtain ⟨more, hclosed, hmore⟩ := exists_afterClosing hopen
  obtain ⟨body, rfl, hbody⟩ := afterClosing_eq_some_iff.1 hclosed
  refine ⟨'(' :: body ++ [')'], more, ?_, isGroup_iff.2 ⟨body, rfl, hbody⟩, hmore⟩
  rw [List.append_assoc]
  rfl

/-- Parentheses around a balanced text make it a group. -/
theorem isGroup_enclosed (h : R.Balanced cs) : R.IsGroup ('(' :: cs ++ [')']) :=
  isGroup_iff.2 ⟨cs, rfl, h⟩

/-- White space behind a group is all that is trimmed. -/
theorem IsGroup.trimChars_append {more : List Char} (h : R.IsGroup cs)
    (hmore : more.all Text.isBlank = true) : Text.trimChars (cs ++ more) = cs := by
  obtain ⟨body, rfl, -⟩ := isGroup_iff.1 h
  -- a group starts and ends in a bracket, and brackets stop the trimming on both sides
  have hopen : Text.isBlank '(' = false := by decide
  have hclose : Text.isBlank ')' = false := by decide
  have hbehind : ∀ c ∈ more.reverse, Text.isBlank c = true := fun c hc =>
    List.all_eq_true.1 hmore c (List.mem_reverse.1 hc)
  have hfront : (('(' :: body ++ [')']) ++ more).dropWhile Text.isBlank =
      ('(' :: body ++ [')']) ++ more := List.dropWhile_cons_of_neg (by simp [hopen])
  unfold Text.trimChars
  rw [hfront, List.reverse_append, List.dropWhile_append_of_pos hbehind, List.reverse_append,
    List.reverse_singleton, List.singleton_append, List.dropWhile_cons_of_neg (by simp [hclose])]
  simp

theorem IsGroup.trimChars_eq (h : R.IsGroup cs) : Text.trimChars cs = cs := by
  have htrim : Text.trimChars (cs ++ []) = cs := h.trimChars_append rfl
  rwa [List.append_nil] at htrim

end SpanReader

end EntitySql
