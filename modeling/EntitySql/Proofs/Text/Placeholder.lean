import EntitySql.Statement

/-! # Placeholders of an SQL text

    A `?` outside of quoted spans is a placeholder. A text is *clean* if it ends
    outside of spans when its reader starts there, so that what follows it is
    read as if it stood alone. A text is *quiet* if it is clean and has no
    placeholder.

    A text between doubled delimiters is quiet whatever it holds, and so is a
    qualified name that is quoted part by part. Placeholders are replaced text
    by text: in a text followed by another one, the parameters for the
    placeholders of the first are used up when the second begins
    (`interpolateFrom_append`).
-/

namespace EntitySql

namespace Text

/-! ## Reading from some state -/

namespace Span

def placeholders : Span → List Char → Nat
  | _, [] => 0
  | state, c :: cs =>
    (if state = none ∧ c = '?' then 1 else 0) + placeholders (state.step c) cs

theorem placeholders_append (state : Span) (cs ds : List Char) :
    placeholders state (cs ++ ds) =
      placeholders state cs + placeholders (state.after cs) ds := by
  induction cs generalizing state with
  | nil => simp [placeholders]
  | cons c cs ih =>
    rw [List.cons_append, placeholders, placeholders, ih, after_cons]
    omega

/-- The reader gets from one state to another one without a placeholder. -/
def Passes (a b : Span) (cs : List Char) : Prop := a.after cs = b ∧ placeholders a cs = 0

instance (a b : Span) (cs : List Char) : Decidable (Passes a b cs) :=
  inferInstanceAs (Decidable (_ ∧ _))

variable {a b c : Span} {q : Char} {cs ds : List Char}

theorem Passes.append (h : Passes a b cs) (h' : Passes b c ds) : Passes a c (cs ++ ds) := by
  obtain ⟨hb, hp⟩ := h
  obtain ⟨hc, hp'⟩ := h'
  exact ⟨by rw [after_append, hb, hc], by rw [placeholders_append, hb, hp, hp']⟩

theorem passes_nil (a : Span) : Passes a a [] := ⟨rfl, rfl⟩

/-- A quote opens a span. -/
theorem passes_open (hq : isQuote q = true) : Passes none (some q) [q] := by
  have hmark : q ≠ '?' := by rintro rfl; exact absurd hq (by decide)
  exact ⟨by simp [after, step, hq], by simp [placeholders, hmark]⟩

/-- The same quote closes it. -/
theorem passes_close (q : Char) : Passes (some q) none [q] :=
  ⟨by simp [after, step], by simp [placeholders]⟩

/-- Another character leaves the reader in the span. -/
theorem passes_inside {d : Char} (hd : d ≠ q) : Passes (some q) (some q) [d] :=
  ⟨by simp [after, step, hd], by simp [placeholders]⟩

/-- Delimiters that are doubled leave the reader in the span. -/
theorem passes_double (hq : isQuote q = true) (cs : List Char) :
    Passes (some q) (some q) (double q cs) := by
  induction cs with
  | nil => exact passes_nil _
  | cons d ds ih =>
    by_cases hd : d = q
    -- a doubled delimiter closes the span and opens it again
    · have hdouble : double q (d :: ds) = [q] ++ ([q] ++ double q ds) := by simp [double, hd]
      rw [hdouble]
      exact (passes_close q).append ((passes_open hq).append ih)
    · have hdouble : double q (d :: ds) = [d] ++ double q ds := by simp [double, hd]
      rw [hdouble]
      exact (passes_inside hd).append ih

/-- A text between doubled delimiters is a span of its own. -/
theorem passes_enclose (hq : isQuote q = true) (cs : List Char) :
    Passes none none (enclose q cs) := by
  have hopen : Passes none (some q) (q :: double q cs) :=
    (passes_open hq).append (passes_double hq cs)
  exact hopen.append (passes_close q)

/-- Characters other than quotes and the question mark leave the reader outside of spans. -/
theorem passes_of_forall (h : ∀ d ∈ cs, isQuote d = false ∧ d ≠ '?') : Passes none none cs := by
  induction cs with
  | nil => exact passes_nil _
  | cons d ds ih =>
    obtain ⟨⟨hquote, hmark⟩, hds⟩ := List.forall_mem_cons.1 h
    have hd : Passes none none [d] :=
      ⟨by simp [after, step, hquote], by simp [placeholders, hmark]⟩
    exact hd.append (ih hds)

theorem Passes.intercalate {sep : List Char} {parts : List (List Char)}
    (hsep : Passes none none sep) (h : ∀ part ∈ parts, Passes none none part) :
    Passes none none (sep.intercalate parts) := by
  induction parts with
  | nil => exact passes_nil _
  | cons part parts ih =>
    obtain ⟨hpart, hparts⟩ := List.forall_mem_cons.1 h
    cases parts with
    | nil => simpa using hpart
    | cons next parts =>
      rw [List.intercalate_cons_cons]
      exact (hpart.append hsep).append (ih hparts)

end Span

/-! ## Texts by themselves -/

/-- The reader of spans starts and ends outside of them. -/
def Clean (s : String) : Prop := Span.after none s.toList = none

instance (s : String) : Decidable (Clean s) := inferInstanceAs (Decidable (_ = _))

/-- The number of placeholders of a text. -/
def placeholders (s : String) : Nat := Span.placeholders none s.toList

/-- A clean text without placeholders. -/
def Quiet (s : String) : Prop := Clean s ∧ placeholders s = 0

instance (s : String) : Decidable (Quiet s) := inferInstanceAs (Decidable (_ ∧ _))

/-- A text without quotes and question marks. -/
def Plain (s : String) : Prop := ∀ c ∈ s.toList, isQuote c = false ∧ c ≠ '?'

instance (s : String) : Decidable (Plain s) := List.decidableBAll _ s.toList

/-- Digits are neither quotes nor question marks. -/
theorem plain_of_isDigit {c : Char} (h : c.isDigit = true) : isQuote c = false ∧ c ≠ '?' := by
  have hne {d : Char} (hd : d.isDigit = false) : c ≠ d := by
    rintro rfl
    exact Bool.noConfusion (hd.symm.trans h)
  constructor
  · simp only [isQuote, Bool.or_eq_false_iff, beq_eq_false_iff_ne]
    exact ⟨⟨hne (by decide), hne (by decide)⟩, hne (by decide)⟩
  · exact hne (by decide)

theorem plain_toString (n : Nat) : Plain (toString n) := by
  intro c hc
  rw [Nat.toString_eq_ofList_toDigits, String.toList_ofList] at hc
  exact plain_of_isDigit (Nat.isDigit_of_mem_toDigits (by decide) (by decide) hc)

theorem quiet_of_plain {s : String} (h : Plain s) : Quiet s := Span.passes_of_forall h

theorem quiet_ofList {cs : List Char} (h : Span.Passes none none cs) :
    Quiet (String.ofList cs) := by
  rw [Quiet, Clean, placeholders, String.toList_ofList]
  exact h

theorem Clean.append {s t : String} (hs : Clean s) (ht : Clean t) : Clean (s ++ t) := by
  rw [Clean, String.toList_append, Span.after_append, hs, ht]

theorem placeholders_append {s t : String} (hs : Clean s) :
    placeholders (s ++ t) = placeholders s + placeholders t := by
  rw [placeholders, String.toList_append, Span.placeholders_append, hs]
  rfl

theorem Quiet.append {s t : String} (hs : Quiet s) (ht : Quiet t) : Quiet (s ++ t) :=
  ⟨hs.1.append ht.1, by rw [placeholders_append hs.1, hs.2, ht.2]⟩

end Text

/-! ## Quoted names -/

namespace Dialect

/-- One part of a quoted name is a star or a span. -/
theorem passes_quotePart {q : Char} (hq : Text.isQuote q = true) (part : List Char) :
    Text.Span.Passes none none (quotePart q part) := by
  unfold quotePart
  split
  · next h =>
    rw [h]
    decide
  · exact Text.Span.passes_enclose hq part

/-- A name that is quoted part by part is quiet, whatever quotes and question marks it holds. -/
theorem quiet_quoteQualified {q : Char} (hq : Text.isQuote q = true) (name : String) :
    Text.Quiet (quoteQualified q name) := by
  apply Text.quiet_ofList
  apply Text.Span.Passes.intercalate (by decide)
  exact List.forall_mem_map.2 fun part _ => passes_quotePart hq part

end Dialect

/-! ## Replacing placeholders -/

namespace Statement

variable (literal : Param → String)

/-- The parameters for the placeholders of a text are used up when the next text begins. -/
theorem interpolateFrom_append {state : Text.Span} {cs ds : List Char} {ps qs : List Param}
    (h : state.placeholders cs = ps.length) :
    interpolateFrom literal state (cs ++ ds) (ps ++ qs) =
      interpolateFrom literal state cs ps ++
        interpolateFrom literal (state.after cs) ds qs := by
  induction cs generalizing state ps with
  | nil =>
    obtain rfl : ps = [] := List.eq_nil_of_length_eq_zero h.symm
    rfl
  | cons c cs ih =>
    rw [Text.Span.placeholders] at h
    simp only [List.cons_append, interpolateFrom, Text.Span.after_cons]
    by_cases hmark : state = none ∧ c = '?'
    -- a placeholder takes the first parameter, and one less is needed for the rest
    · obtain ⟨rfl, rfl⟩ := hmark
      rw [if_pos ⟨rfl, rfl⟩] at h
      have hstep : Text.Span.step none '?' = none := rfl
      rw [hstep] at h ⊢
      cases ps with
      | nil => exact absurd h (by simp)
      | cons p ps =>
        have hrest : Text.Span.placeholders none cs = ps.length := by
          rw [List.length_cons] at h
          omega
        simp [ih hrest]
    · rw [if_neg hmark] at h
      have hrest : (state.step c).placeholders cs = ps.length := by omega
      simp [hmark, ih hrest]

end Statement

end EntitySql
