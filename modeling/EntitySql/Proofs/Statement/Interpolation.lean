import EntitySql.Proofs.Text.Placeholder

/-! # Interpolation in steps

    The literal of a parameter is quiet: a number has no quote and no question
    mark, and all else that may hold one stands between doubled delimiters. So
    a literal leaves the reader of spans outside of them, and nothing in it
    passes for a placeholder.

    A text can therefore be interpolated in several steps. What the first step
    has put in is passed over by the second one, which goes on with the first
    placeholder that is left, in whatever state of the reader
    (`interpolateFrom_interpolateFrom`).
-/

namespace EntitySql

/-! ## Numbers -/

namespace Decimal

/-- The characters of a number: digits, signs, the point and the mark of the exponent. -/
def IsNumeral (c : Char) : Prop := c.isDigit = true ∨ c ∈ ['-', '+', '.', 'e']

instance (c : Char) : Decidable (IsNumeral c) := inferInstanceAs (Decidable (_ ∨ _))

theorem isNumeral_digitChars {n : Nat} {c : Char} (hc : c ∈ digitChars n) : IsNumeral c :=
  Or.inl (Nat.isDigit_of_mem_toDigits (by decide) (by decide) hc)

/-- A number without an exponent has its digits, zeros and at most a point. -/
theorem mem_positionalText {pointZero : Bool} {digits : List Char} {exponent : Int} {c : Char}
    (hc : c ∈ positionalText pointZero digits exponent) : c ∈ digits ∨ c = '0' ∨ c = '.' := by
  unfold positionalText at hc
  split at hc
  · cases pointZero <;> grind
  · dsimp only at hc
    split at hc <;> grind

/-- A number with an exponent has its digits, those of the exponent, and the marks. -/
theorem mem_scientificText {digits : List Char} {exponent : Int} {c : Char}
    (hc : c ∈ scientificText digits exponent) :
    c ∈ digits ∨ c ∈ digitChars exponent.natAbs ∨ c ∈ ['-', '+', '.', 'e'] := by
  unfold scientificText at hc
  split at hc <;> grind

theorem text_cases (format : DecimalFormat) (x : Decimal) :
    x.text format = positionalText format.pointZero (digitChars x.digits) x.exponent ∨
      ∃ exponent, x.text format = scientificText (digitChars x.digits) exponent := by
  unfold text
  dsimp only
  -- a format with no range for positions always writes positionally
  cases format.positional with
  | none => exact Or.inl rfl
  | some range =>
    dsimp only
    split
    · exact Or.inl rfl
    · exact Or.inr ⟨_, rfl⟩

theorem isNumeral_text {format : DecimalFormat} {x : Decimal} {c : Char}
    (hc : c ∈ x.text format) : IsNumeral c := by
  -- both layouts are made of digits and of the few marks a numeral may hold
  rcases text_cases format x with htext | ⟨exponent, htext⟩
  · rw [htext] at hc
    rcases mem_positionalText hc with hdigit | rfl | rfl
    · exact isNumeral_digitChars hdigit
    · exact Or.inl rfl
    · exact Or.inr (by decide)
  · rw [htext] at hc
    rcases mem_scientificText hc with hdigit | hdigit | hmark
    · exact isNumeral_digitChars hdigit
    · exact isNumeral_digitChars hdigit
    · exact Or.inr hmark

end Decimal

/-- The characters of a number are neither quotes nor question marks. -/
theorem Decimal.IsNumeral.plain {c : Char} (h : IsNumeral c) :
    Text.isQuote c = false ∧ c ≠ '?' := by
  rcases h with hdigit | hmark
  · exact Text.plain_of_isDigit hdigit
  · have hmarks : Text.Plain "-+.e" := by decide
    exact hmarks c hmark

/-- A number is plain in every format whose words are. -/
theorem Double.plain_text {format : DecimalFormat} (hnan : Text.Plain format.nan)
    (hinfinity : Text.Plain format.infinity) (hnegative : Text.Plain format.negativeInfinity)
    (x : Double) : Text.Plain (x.text format) := by
  -- the sign is plain as well, so it is enough to look at the magnitude
  have hsigned {cs : List Char} (hcs : ∀ c ∈ cs, Decimal.IsNumeral c) :
      Text.Plain (String.ofList (if x.isNegative then '-' :: cs else cs)) := by
    intro c hc
    rw [String.toList_ofList] at hc
    split at hc
    · rcases List.mem_cons.1 hc with rfl | hc
      · decide
      · exact (hcs c hc).plain
    · exact (hcs c hc).plain
  unfold text
  cases x.magnitude with
  | nan => exact hnan
  | infinite =>
    dsimp only
    split
    · exact hnegative
    · exact hinfinity
  | zero =>
    refine hsigned fun c hc => ?_
    have hzero : c = '0' ∨ c = '.' := by split at hc <;> grind
    rcases hzero with rfl | rfl <;> decide
  | finite m q => exact hsigned fun c hc => Decimal.isNumeral_text hc

theorem Text.plain_toString_int (i : Int) : Text.Plain (toString i) := by
  cases i with
  | ofNat n => exact Text.plain_toString n
  | negSucc n =>
    intro c hc
    have hform : toString (Int.negSucc n) = "-" ++ toString (n + 1) := rfl
    rw [hform, String.toList_append, List.mem_append] at hc
    rcases hc with hc | hc
    · have hminus : Text.Plain "-" := by decide
      exact hminus c hc
    · exact Text.plain_toString (n + 1) c hc

/-! ## Literals -/

namespace Param

/-- The digits of a byte hold no quote. -/
theorem quote_not_mem_byteDigits (b : UInt8) : '\'' ∉ byteDigits b := by
  have hdigit : ∀ n < 16, '\'' ≠ (Nat.digitChar n).toUpper := by decide
  have hsize := b.toNat_lt
  simp only [byteDigits, List.mem_cons, List.not_mem_nil, or_false, not_or]
  exact ⟨hdigit _ (by omega), hdigit _ (by omega)⟩

/-- The literal of a parameter is quiet if strings are quoted so. -/
theorem quiet_literal {quote : String → String} (hquote : ∀ s, Text.Quiet (quote s)) (p : Param) :
    Text.Quiet (p.literal quote) := by
  cases p with
  | null =>
    show Text.Quiet "NULL"
    decide
  | bool b =>
    show Text.Quiet (if b then "TRUE" else "FALSE")
    revert b
    decide
  | int i => exact Text.quiet_of_plain (Text.plain_toString_int i.toInt)
  | float x =>
    exact Text.quiet_of_plain
      (Double.plain_text (by decide) (by decide) (by decide) x)
  | string s => exact hquote s
  | bytes bs =>
    have hbody : '\'' ∉ bs.flatMap byteDigits := by
      intro h
      obtain ⟨b, -, hb⟩ := List.mem_flatMap.1 h
      exact quote_not_mem_byteDigits b hb
    -- the digits stand between quotes of which there is none among them
    have hform : 'X' :: '\'' :: bs.flatMap byteDigits ++ ['\''] =
        ['X'] ++ Text.enclose '\'' (bs.flatMap byteDigits) := by
      rw [Text.enclose, Text.double_eq_self hbody]
      rfl
    apply Text.quiet_ofList
    rw [hform]
    have hmark : Text.Span.Passes none none ['X'] := by decide
    exact hmark.append (Text.Span.passes_enclose (by decide) _)

end Param

/-- The shipped dialects quote strings quietly. -/
theorem Dialect.quiet_quoteValue (db : Option Database) (value : String) :
    Text.Quiet ((ofDatabase db).quoteValue value) := by
  have hq : Text.isQuote '\'' = true := by decide
  cases db with
  | none => exact Text.quiet_ofList (Text.Span.passes_enclose hq _)
  | some db => cases db <;> exact Text.quiet_ofList (Text.Span.passes_enclose hq _)

/-! ## One step after the other -/

namespace Statement

variable {literal : Param → String}

/-- Interpolating what has been interpolated goes on with the placeholders that are left. -/
theorem interpolateFrom_interpolateFrom (hliteral : ∀ p, Text.Quiet (literal p))
    (state : Text.Span) (cs : List Char) (ps qs : List Param) :
    interpolateFrom literal state (interpolateFrom literal state cs ps) qs =
      interpolateFrom literal state cs (ps ++ qs) := by
  induction cs generalizing state ps with
  | nil => rfl
  | cons c cs ih =>
    by_cases hmark : state = none ∧ c = '?'
    · obtain ⟨rfl, rfl⟩ := hmark
      cases ps with
      | nil => rw [interpolateFrom_nil, List.nil_append]
      | cons p ps =>
        -- the literal of the first parameter is passed over, and leaves the reader outside
        obtain ⟨hclean, hcount⟩ := hliteral p
        have hpass : interpolateFrom literal none
            ((literal p).toList ++ interpolateFrom literal none cs ps) ([] ++ qs) = _ :=
          interpolateFrom_append literal hcount
        have hfirst (rest : List Param) : interpolateFrom literal none ('?' :: cs) (p :: rest) =
            (literal p).toList ++ interpolateFrom literal none cs rest := rfl
        rw [List.nil_append, interpolateFrom_nil, hclean, ih] at hpass
        rw [List.cons_append, hfirst, hfirst, hpass]
    · have hcopy (cs : List Char) (rest : List Param) :
          interpolateFrom literal state (c :: cs) rest =
            c :: interpolateFrom literal (state.step c) cs rest := by
        simp only [interpolateFrom]
        rw [if_neg hmark]
      rw [hcopy, hcopy, hcopy, ih]

/-- Interpolating a text with some parameters and the result with others is interpolating it with
    all of them, whatever quotes, backslashes and question marks the parameters hold and wherever
    the quotes of the text leave its reader. So a value that has been put in is never taken for a
    placeholder and moves no parameter that follows. -/
theorem interpolated_interpolated (db : Option Database) (sql : String) (ps qs : List Param) :
    interpolated (Dialect.ofDatabase db) ⟨interpolated (Dialect.ofDatabase db) ⟨sql, ps⟩, qs⟩ =
      interpolated (Dialect.ofDatabase db) ⟨sql, ps ++ qs⟩ := by
  have hliteral : ∀ p, Text.Quiet (Param.literal (Dialect.ofDatabase db).quoteValue p) :=
    Param.quiet_literal (Dialect.quiet_quoteValue db)
  unfold interpolated
  rw [String.toList_ofList, interpolateFrom_interpolateFrom hliteral]

end Statement

end EntitySql
