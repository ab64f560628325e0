import EntitySql.Proofs.Statement.Interpolation
import EntitySql.Proofs.Text.Lexeme
import EntitySql.Proofs.Text.Quotation

/-! # Interpolation against the lexemes of a text

    Interpolation keeps no more than the quote of the span it is in, and looks
    at one character at a time. A reader of lexemes looks ahead for a second
    delimiter. For spans in which only doubled delimiters are special the two
    find the same placeholders: a doubled delimiter closes the span and opens
    it again, with nothing in between (`fill_lexemesFrom`).

    In the strings of some databases a backslash escapes too. Interpolation
    takes no notice of it, so there it may find other placeholders than the
    database. As the literal of a parameter is never empty and never begins with
    a question mark, one can tell from the result which placeholders have been
    replaced: it is the text with the placeholders of the database replaced just
    if those that get a parameter are at the same places in both readings
    (`fill_eq_fill_iff`).
-/

namespace EntitySql

/-! ## Literals are visible -/

theorem Decimal.text_ne_nil (format : DecimalFormat) (x : Decimal) : x.text format ≠ [] := by
  have hdigits : digitChars x.digits ≠ [] :=
    List.ne_nil_of_length_pos Nat.length_toDigits_pos
  rcases text_cases format x with htext | ⟨exponent, htext⟩
  · rw [htext, positionalText]
    split
    · simp [hdigits]
    · dsimp only
      split <;> simp
  · rw [htext]
    exact List.append_ne_nil_of_right_ne_nil _ (List.cons_ne_nil _ _)

theorem Double.text_ne_nil {format : DecimalFormat} (hnan : format.nan.toList ≠ [])
    (hinfinity : format.infinity.toList ≠ []) (hnegative : format.negativeInfinity.toList ≠ [])
    (x : Double) : (x.text format).toList ≠ [] := by
  have hsigned {cs : List Char} (hcs : cs ≠ []) :
      (String.ofList (if x.isNegative then '-' :: cs else cs)).toList ≠ [] := by
    rw [String.toList_ofList]
    split
    · exact List.cons_ne_nil _ _
    · exact hcs
  unfold text
  cases x.magnitude with
  | nan => exact hnan
  | infinite =>
    dsimp only
    split
    · exact hnegative
    · exact hinfinity
  | zero =>
    refine hsigned ?_
    split <;> exact List.cons_ne_nil _ _
  | finite m q => exact hsigned (Decimal.text_ne_nil _ _)

namespace Param

theorem literal_ne_nil {quote : String → String} (hquote : ∀ s, (quote s).toList ≠ [])
    (p : Param) : (p.literal quote).toList ≠ [] := by
  cases p with
  | null =>
    show "NULL".toList ≠ []
    decide
  | bool b =>
    show (if b then "TRUE" else "FALSE").toList ≠ []
    revert b
    decide
  | int i =>
    show (toString i.toInt).toList ≠ []
    generalize i.toInt = n
    -- a negative number has its sign, the others at least one digit
    cases n with
    | ofNat n =>
      have hform : toString (Int.ofNat n) = toString n := rfl
      rw [hform, Nat.toString_eq_ofList_toDigits, String.toList_ofList]
      exact List.ne_nil_of_length_pos Nat.length_toDigits_pos
    | negSucc n =>
      have hform : toString (Int.negSucc n) = "-" ++ toString (n + 1) := rfl
      rw [hform, String.toList_append]
      exact List.append_ne_nil_of_left_ne_nil (by decide) _
  | float x => exact Double.text_ne_nil (by decide) (by decide) (by decide) x
  | string s => exact hquote s
  | bytes bs =>
    show (String.ofList _).toList ≠ []
    rw [String.toList_ofList]
    exact List.cons_ne_nil _ _

/-- A text that shows: it is not empty, and its first character is not a question mark. -/
def Visible (text : String) : Prop := ∃ c cs, text.toList = c :: cs ∧ c ≠ '?'

/-- The literal of a parameter shows in place of a placeholder. -/
theorem visible_literal (db : Option Database) (p : Param) :
    Visible (p.literal (Dialect.ofDatabase db).quoteValue) := by
  have hquote (s : String) : ((Dialect.ofDatabase db).quoteValue s).toList ≠ [] := by
    cases db with
    | none => exact fun h => List.cons_ne_nil _ _ (String.toList_ofList.symm.trans h)
    | some db =>
      cases db <;> exact fun h => List.cons_ne_nil _ _ (String.toList_ofList.symm.trans h)
  obtain ⟨c, cs, hcs⟩ := List.exists_cons_of_ne_nil (literal_ne_nil hquote p)
  refine ⟨c, cs, hcs, ?_⟩
  rintro rfl
  -- a literal that begins with a question mark would have a placeholder
  obtain ⟨-, hcount⟩ := quiet_literal (Dialect.quiet_quoteValue db) p
  rw [Text.placeholders, hcs, Text.Span.placeholders, if_pos ⟨rfl, rfl⟩] at hcount
  omega

end Param

/-! ## Replacing the placeholders of a reading -/

namespace Statement

/-- Puts literals in place of the marked characters, as long as there are parameters. -/
def fill (literal : Param → String) : List (Char × Bool) → List Param → List Char
  | [], _ => []
  | (c, true) :: cs, [] => c :: fill literal cs []
  | (_, true) :: cs, p :: ps => (literal p).toList ++ fill literal cs ps
  | (c, false) :: cs, ps => c :: fill literal cs ps

/-- The places of the marked characters, from some place on. -/
def placesFrom : Nat → List (Char × Bool) → List Nat
  | _, [] => []
  | n, (_, true) :: cs => n :: placesFrom (n + 1) cs
  | n, (_, false) :: cs => placesFrom (n + 1) cs

/-- The places of the placeholders in a reading of a text. -/
def placeholderPlaces (escapes : Bool) (sql : String) : List Nat :=
  placesFrom 0 (Text.read escapes sql)

/-- The text with its parameters in place of the placeholders of a reading. -/
def substituted (escapes : Bool) (d : Dialect) (s : Statement) : String :=
  String.ofList (fill (Param.literal d.quoteValue) (Text.read escapes s.sql) s.params)

variable {literal : Param → String}

theorem fill_nil (cs : List (Char × Bool)) : fill literal cs [] = cs.map Prod.fst := by
  induction cs with
  | nil => rfl
  | cons x cs ih =>
    obtain ⟨c, mark⟩ := x
    cases mark <;> exact congrArg (c :: ·) ih

theorem fill_unmarked_append (cs : List Char) (rest : List (Char × Bool)) (ps : List Param) :
    fill literal (cs.map (·, false) ++ rest) ps = cs ++ fill literal rest ps := by
  induction cs with
  | nil => rfl
  | cons c cs ih => exact congrArg (c :: ·) ih

/-- A character that is not a placeholder stays. -/
theorem interpolateFrom_cons {state : Text.Span} {c : Char} (h : ¬(state = none ∧ c = '?'))
    (cs : List Char) (ps : List Param) :
    interpolateFrom literal state (c :: cs) ps =
      c :: interpolateFrom literal (state.step c) cs ps := by
  simp only [interpolateFrom]
  rw [if_neg h]

theorem interpolateFrom_open {quote : Char} (hquote : Text.isQuote quote = true) (cs : List Char)
    (ps : List Param) :
    interpolateFrom literal none (quote :: cs) ps =
      quote :: interpolateFrom literal (some quote) cs ps := by
  have hmark : ¬(none = (none : Text.Span) ∧ quote = '?') := by
    rintro ⟨-, rfl⟩
    exact absurd hquote (by decide)
  rw [interpolateFrom_cons hmark, Text.Span.step, if_pos hquote]

theorem interpolateFrom_close (quote : Char) (cs : List Char) (ps : List Param) :
    interpolateFrom literal (some quote) (quote :: cs) ps =
      quote :: interpolateFrom literal none cs ps := by
  rw [interpolateFrom_cons fun h => Option.some_ne_none _ h.1, Text.Span.step, if_pos rfl]

theorem interpolateFrom_inside {quote c : Char} (hc : c ≠ quote) (cs : List Char)
    (ps : List Param) :
    interpolateFrom literal (some quote) (c :: cs) ps =
      c :: interpolateFrom literal (some quote) cs ps := by
  rw [interpolateFrom_cons fun h => Option.some_ne_none _ h.1, Text.Span.step, if_neg hc]

theorem fill_span_append (quote : Char) (body : List Char) (rest : List (Char × Bool))
    (ps : List Param) :
    fill literal ((Text.Lexeme.span quote body).marked ++ rest) ps =
      quote :: body ++ quote :: fill literal rest ps := by
  rw [Text.Lexeme.marked, fill_unmarked_append, List.append_assoc, List.singleton_append]

/-- The placeholders that interpolation replaces are those of the lexemes in which only doubled
    delimiters are special. -/
theorem fill_lexemesFrom (state : Option Text.PartialSpan) (cs : List Char) (ps : List Param)
    (hstate : ∀ quote ∈ state.map Prod.fst, Text.isQuote quote = true) :
    fill literal ((Text.lexemesFrom false state cs).flatMap Text.Lexeme.marked) ps =
      Text.opening state ++ interpolateFrom literal (state.map Prod.fst) cs ps := by
  fun_induction Text.lexemesFrom false state cs generalizing ps with
  | case1 => rfl
  | case2 quote cs hquote ih =>
    rw [ih ps (by simpa using hquote)]
    exact (interpolateFrom_open hquote cs ps).symm
  | case3 c cs hquote ih =>
    have hrest (qs : List Param) := ih qs hstate
    by_cases hmark : c = '?'
    · subst hmark
      cases ps with
      | nil => exact congrArg ('?' :: ·) (hrest [])
      | cons p ps => exact congrArg ((literal p).toList ++ ·) (hrest ps)
    · have hplain : Text.Lexeme.marked (.plain c) = [(c, false)] := by
        simp [Text.Lexeme.marked, hmark]
      have hcopy : interpolateFrom literal none (c :: cs) ps =
          c :: interpolateFrom literal none cs ps := by
        rw [interpolateFrom_cons fun h => hmark h.2, Text.Span.step, if_neg hquote]
      rw [List.flatMap_cons, hplain]
      exact (congrArg (c :: ·) (hrest ps)).trans hcopy.symm
  | case4 quote body => exact fill_unmarked_append (quote :: body.reverse) [] ps
  | case5 body quote =>
    show fill literal ((Text.Lexeme.span quote body.reverse).marked ++ []) ps =
      _ ++ interpolateFrom literal (some quote) [quote] ps
    rw [interpolateFrom_close]
    exact fill_span_append quote body.reverse [] ps
  | case6 quote body c hc =>
    show _ = _ ++ interpolateFrom literal (some quote) [c] ps
    rw [interpolateFrom_inside hc]
    refine (fill_unmarked_append (quote :: (c :: body).reverse) [] ps).trans ?_
    simp [fill, interpolateFrom, Text.opening]
  | case7 body quote cs ih =>
    -- between the two delimiters interpolation is outside, but the second opens a span again
    have hquote : Text.isQuote quote = true := hstate quote rfl
    rw [ih ps hstate, Text.opening_cons, Text.opening_cons, List.append_assoc, List.append_assoc]
    show _ = _ ++ interpolateFrom literal (some quote) (quote :: quote :: cs) ps
    rw [interpolateFrom_close, interpolateFrom_open hquote]
    rfl
  | case8 body quote d cs hd ih =>
    rw [List.flatMap_cons, fill_span_append, ih ps (by simp)]
    show _ = _ ++ interpolateFrom literal (some quote) (quote :: d :: cs) ps
    rw [interpolateFrom_close]
    rfl
  | case9 quote body c d cs hc hescape ih => exact absurd hescape.1 Bool.false_ne_true
  | case10 quote body c d cs hc hescape ih =>
    rw [ih ps hstate, Text.opening_cons, List.append_assoc]
    show _ = _ ++ interpolateFrom literal (some quote) (c :: d :: cs) ps
    rw [interpolateFrom_inside hc]
    rfl

/-! ## Two readings of one text -/

theorem le_of_mem_placesFrom {n k : Nat} {cs : List (Char × Bool)} (h : k ∈ placesFrom n cs) :
    n ≤ k := by
  -- counting starts at `n` and only goes up, so the induction is over all starts
  induction cs generalizing n with
  | nil => cases h
  | cons x cs ih =>
    obtain ⟨c, mark⟩ := x
    cases mark with
    | false => exact Nat.le_of_succ_le (ih h)
    | true =>
      rcases List.mem_cons.1 h with rfl | h
      · exact Nat.le_refl _
      · exact Nat.le_of_succ_le (ih h)

/-- A place is not among later ones. -/
theorem cons_take_placesFrom_ne {n k l : Nat} (places : List Nat) (cs : List (Char × Bool)) :
    (n :: places).take (k + 1) ≠ (placesFrom (n + 1) cs).take l := by
  intro h
  have hmem : n ∈ (placesFrom (n + 1) cs).take l := by
    rw [← h, List.take_succ_cons]
    exact List.mem_cons_self
  have hle := le_of_mem_placesFrom (List.mem_of_mem_take hmem)
  omega

theorem append_ne_cons_of_visible {text : String} (htext : Param.Visible text)
    (cs ds : List Char) : text.toList ++ cs ≠ '?' :: ds := by
  obtain ⟨c, rest, hform, hc⟩ := htext
  rw [hform]
  exact fun h => hc (List.cons.inj h).1

/-- Of two readings of one text the results of replacing the placeholders are the same just if
    those that get a parameter are at the same places. -/
theorem fill_eq_fill_iff (hliteral : ∀ p, Param.Visible (literal p)) {cs ds : List (Char × Bool)}
    (htext : cs.map Prod.fst = ds.map Prod.fst) (hcs : ∀ x ∈ cs, x.2 = true → x.1 = '?')
    (hds : ∀ x ∈ ds, x.2 = true → x.1 = '?') (n : Nat) (ps : List Param) :
    fill literal cs ps = fill literal ds ps ↔
      (placesFrom n cs).take ps.length = (placesFrom n ds).take ps.length := by
  induction cs generalizing ds n ps with
  | nil =>
    obtain rfl : ds = [] := List.map_eq_nil_iff.1 htext.symm
    exact iff_of_true rfl rfl
  | cons x cs ih =>
    obtain ⟨c, mark⟩ := x
    obtain _ | ⟨⟨d, mark'⟩, ds⟩ := ds
    · cases htext
    obtain ⟨hc, hrest⟩ := List.cons.inj htext
    obtain rfl : c = d := hc
    obtain ⟨hfirst, hcs⟩ := List.forall_mem_cons.1 hcs
    obtain ⟨hfirst', hds⟩ := List.forall_mem_cons.1 hds
    have ih := ih hrest hcs hds (n + 1)
    cases ps with
    | nil =>
      -- without parameters both readings give the text back
      rw [fill_nil, fill_nil]
      exact iff_of_true htext rfl
    | cons p ps =>
      cases mark with
      | false =>
        cases mark' with
        | false => exact (List.cons_inj_right c).trans (ih (p :: ps))
        | true =>
          -- only one of the readings puts a literal here, and the literal shows
          obtain rfl : c = '?' := hfirst' rfl
          refine iff_of_false (fun h => ?_) (fun h => ?_)
          · exact append_ne_cons_of_visible (hliteral p) _ _ h.symm
          · exact cons_take_placesFrom_ne _ _ h.symm
      | true =>
        obtain rfl : c = '?' := hfirst rfl
        cases mark' with
        | false =>
          refine iff_of_false (fun h => ?_) (fun h => ?_)
          · exact append_ne_cons_of_visible (hliteral p) _ _ h
          · exact cons_take_placesFrom_ne _ _ h
        | true => exact (List.append_right_inj _).trans ((ih ps).trans (List.cons_inj_right n).symm)

/-! ## Interpolated statements -/

theorem interpolated_eq_substituted (d : Dialect) (s : Statement) :
    s.interpolated d = s.substituted false d :=
  congrArg String.ofList (fill_lexemesFrom none s.sql.toList s.params fun _ => nofun).symm

/-- Interpolation replaces the placeholders of the lexemes in which only doubled delimiters are
    special. That is what the database would take for placeholders just if, as far as there are
    parameters, these stand at the same places where its backslashes escape. So it is for every
    text unless the database is MySQL, and there for every text without backslashes in its spans
    other than names. -/
theorem interpolated_eq_substituted_iff (db : Option Database) (s : Statement) :
    s.interpolated (.ofDatabase db) = s.substituted false (.ofDatabase db) ∧
    (s.interpolated (.ofDatabase db) =
        s.substituted (Database.escapesBackslash db) (.ofDatabase db) ↔
      (placeholderPlaces false s.sql).take s.params.length =
        (placeholderPlaces (Database.escapesBackslash db) s.sql).take s.params.length) ∧
    ((db ≠ some .mysql ∨ ∀ lexeme ∈ Text.lexemes true s.sql, lexeme.hasBackslash = false) →
      s.interpolated (.ofDatabase db) =
        s.substituted (Database.escapesBackslash db) (.ofDatabase db)) := by
  have hstandard := interpolated_eq_substituted (.ofDatabase db) s
  refine ⟨hstandard, ?_, ?_⟩
  · rw [hstandard, substituted, substituted, String.ofList_inj]
    have htext : (Text.read false s.sql).map Prod.fst =
        (Text.read (Database.escapesBackslash db) s.sql).map Prod.fst := by
      rw [Text.map_fst_read, Text.map_fst_read]
    exact fill_eq_fill_iff (Param.visible_literal db) htext (fun _ => Text.eq_of_mem_read)
      (fun _ => Text.eq_of_mem_read) 0 s.params
  · intro h
    rw [hstandard]
    -- both readers find the same lexemes
    have hread : Text.read (Database.escapesBackslash db) s.sql = Text.read false s.sql := by
      rcases h with hdb | hplain
      · cases db with
        | none => rfl
        | some db => cases db with
          | postgres => rfl
          | mysql => exact absurd rfl hdb
          | sqlite => rfl
      · cases Database.escapesBackslash db with
        | false => rfl
        | true => exact Text.read_eq_of_forall hplain
    rw [substituted, substituted, hread]

/-- Strings with doubled quotes are left as they are. -/
theorem interpolated_eq_substituted_iff_doubled :
    interpolated (.ofDatabase (some .mysql)) ⟨"SELECT 'it''s ?', ?", [.int 7]⟩ =
      "SELECT 'it''s ?', 7" ∧
    interpolated (.ofDatabase (some .mysql)) ⟨"SELECT 'it''s ?', ?", [.int 7]⟩ =
      substituted true (.ofDatabase (some .mysql)) ⟨"SELECT 'it''s ?', ?", [.int 7]⟩ :=
  have hpair := interpolated_eq_substituted_iff (some .mysql) ⟨"SELECT 'it''s ?', ?", [.int 7]⟩
  ⟨by decide, hpair.2.2 (Or.inr (by decide))⟩

/-- A quote behind a backslash does not end a string of MySQL, but ends it for interpolation,
    which takes a question mark of the string for the placeholder. -/
theorem interpolated_ignores_backslash :
    interpolated (.ofDatabase (some .mysql)) ⟨"SELECT 'it\\'s ?', ?", [.string "x"]⟩ =
      "SELECT 'it\\'s 'x'', ?" ∧
    substituted true (.ofDatabase (some .mysql)) ⟨"SELECT 'it\\'s ?', ?", [.string "x"]⟩ =
      "SELECT 'it\\'s ?', 'x'" := by
  decide

end Statement

end EntitySql
