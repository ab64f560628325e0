import EntitySql.Predicate
import EntitySql.Proofs.Outcome
import EntitySql.Proofs.Rendering
import EntitySql.Proofs.Text.Parenthesis

/-! # The right side of a predicate

    A key on the right side of a predicate is given as such, or as a string that
    is marked as one. All operators but two render both in the same way: after
    the left side and the operator comes the quoted name, and nothing of it is
    bound.

    The two are `IN` and `NOT IN`. They refuse a key and do not heed the mark, so
    a marked string is bound like any other value
    (`statement_marked_eq_key_iff`).

    An expression that values are looked up in is put in parentheses, unless its
    text begins with one. So what stands behind the operator is one group, except
    where the text begins with a parenthesis that is closed before its end
    (`statement_member_isGroup_iff`).
-/

namespace EntitySql

namespace Predicate

/-! ## Membership -/

/-- Whether the predicate asks for membership: its operator is read as `IN` or `NOT IN`. -/
def asksMembership (p : Predicate) : Bool :=
  (p.operator.bind Operator.ofText?).any Operator.isMembership

theorem asksMembership_eq (p : Predicate) :
    p.asksMembership = match p.readOperator with
      | .ok (some op) => op.isMembership
      | _ => false := by
  unfold asksMembership readOperator
  cases p.operator with
  | none => rfl
  | some text => cases hop : Operator.ofText? text <;> simp [hop]

theorem rendering_of_error {p : Predicate} {e : SqlError} (h : p.readOperator = .error e) :
    p.rendering = .fail e := by
  unfold rendering
  rw [h]

theorem rendering_of_no_operator {p : Predicate} (h : p.readOperator = .ok none) :
    p.rendering = p.left.leftSide := by
  unfold rendering
  rw [h]

/-! ## Keys in both forms -/

variable {left : Operand} {operator : Option String} {name : String} {flag : Bool} {op : Operator}

/-- A marked string stands behind the operator, as a parameter for membership and else as a
    name. -/
theorem rendering_marked
    (h : readOperator ⟨left, operator, .value (.string name), true⟩ = .ok (some op)) :
    rendering ⟨left, operator, .value (.string name), true⟩ =
      left.leftSide ++ .text (" " ++ op.sql ++ " ") ++
        if op.isMembership then parenthesized (.param (.string name)) else .name name := by
  unfold rendering
  rw [h]
  dsimp only
  split <;> rfl

/-- A key stands there as a name, and is no set of values. -/
theorem rendering_key (h : readOperator ⟨left, operator, .key name, flag⟩ = .ok (some op)) :
    rendering ⟨left, operator, .key name, flag⟩ =
      if op.isMembership then .fail (.typeMismatch (.listFor op) "key")
      else left.leftSide ++ .text (" " ++ op.sql ++ " ") ++ .name name := by
  unfold rendering
  rw [h]
  dsimp only
  split <;> rfl

/-- A left side that cannot be rendered is neither a key nor an expression. -/
theorem leftSide_eq_error {d : Dialect} {e : SqlError} (h : left.leftSide.statement d = .error e) :
    e = .typeMismatch .keyOrExpressionOnLeft left.kind := by
  cases left with
  | key name => exact absurd h nofun
  | expression e => exact absurd h nofun
  | value p => exact (Except.error.inj h).symm
  | list ps => exact (Except.error.inj h).symm

/-- The statement of a predicate with a marked string: what stands behind the operator is added to
    the statement of the left side. -/
theorem statement_marked (d : Dialect)
    (h : readOperator ⟨left, operator, .value (.string name), true⟩ = .ok (some op)) :
    (rendering ⟨left, operator, .value (.string name), true⟩).statement d =
      (left.leftSide.statement d).map fun l => l ++ ⟨" " ++ op.sql ++ " ", []⟩ ++
        if op.isMembership then ⟨"(?)", [.string name]⟩ else ⟨d.quoteName name, []⟩ := by
  -- behind the operator there is either a bound string in parentheses or a quoted name
  have hbehind : (if op.isMembership then parenthesized (.param (.string name))
      else .name name).statement d =
        .ok (if op.isMembership then ⟨"(?)", [.string name]⟩ else ⟨d.quoteName name, []⟩) := by
    split
    · rfl
    · exact congrArg Except.ok (Statement.ext String.empty_append rfl)
  rw [rendering_marked h, Rendering.statement_append, Rendering.statement_append,
    Rendering.statement_text, hbehind]
  cases left.leftSide.statement d <;> rfl

/-- A key and a marked string behind one operator. -/
theorem statement_marked_eq_iff (d : Dialect)
    (h : readOperator ⟨left, operator, .value (.string name), true⟩ = .ok (some op)) :
    (rendering ⟨left, operator, .value (.string name), true⟩).statement d =
      (rendering ⟨left, operator, .key name, flag⟩).statement d ↔ op.isMembership = false := by
  have hkey : rendering ⟨left, operator, .key name, flag⟩ = _ := rendering_key h
  cases hmember : op.isMembership with
  | true =>
    -- what the key fails on is the right side, and a marked string fails on the left one
    refine iff_of_false (fun heq => ?_) nofun
    rw [hkey, if_pos hmember, statement_marked d h] at heq
    have hleft := leftSide_eq_error (Outcome.map_eq_error_iff.1 heq)
    exact absurd hleft nofun
  | false =>
    refine iff_of_true ?_ rfl
    rw [rendering_marked h, hkey, hmember]
    rfl

/-- A marked string is bound behind the parameters of the left side for membership only. -/
theorem params_statement_marked {d : Dialect} {s : Statement}
    (h : readOperator ⟨left, operator, .value (.string name), true⟩ = .ok (some op))
    (hs : (rendering ⟨left, operator, .value (.string name), true⟩).statement d = .ok s) :
    ∃ l, left.leftSide.statement d = .ok l ∧
      s.params = l.params ++ if op.isMembership then [.string name] else [] := by
  rw [statement_marked d h] at hs
  obtain ⟨l, hl, rfl⟩ := Outcome.map_eq_ok_iff.1 hs
  refine ⟨l, hl, ?_⟩
  rw [Statement.params_append, Statement.params_append, List.append_nil]
  by_cases hmember : op.isMembership = true
  · rw [if_pos hmember, if_pos hmember]
  · rw [if_neg hmember, if_neg hmember]

/-- A predicate with a marked string and the one with the key itself have the same statement, or
    fail on the same error, if and only if they do not ask for membership. What a marked string
    adds to the parameters of the left side is nothing then, and else the string itself. -/
theorem statement_marked_eq_key_iff (d : Dialect) (left : Operand) (operator : Option String)
    (name : String) (flag : Bool) :
    let marked : Predicate := ⟨left, operator, .value (.string name), true⟩
    let key : Predicate := ⟨left, operator, .key name, flag⟩
    (marked.rendering.statement d = key.rendering.statement d ↔ marked.asksMembership = false) ∧
      ∀ s, marked.rendering.statement d = .ok s →
        ∃ l, left.leftSide.statement d = .ok l ∧
          s.params = l.params ++ if marked.asksMembership then [.string name] else [] := by
  intro marked key
  have hread : key.readOperator = marked.readOperator := rfl
  rw [marked.asksMembership_eq]
  -- the operators of both are read from the same text, and without one the right side is not looked
  -- at
  cases hop : marked.readOperator with
  | error e =>
    rw [rendering_of_error hop, rendering_of_error (hread.trans hop)]
    exact ⟨⟨fun _ => rfl, fun _ => rfl⟩, fun s hs => absurd hs nofun⟩
  | ok op? =>
    cases op? with
    | none =>
      rw [rendering_of_no_operator hop, rendering_of_no_operator (hread.trans hop)]
      exact ⟨⟨fun _ => rfl, fun _ => rfl⟩, fun s hs => ⟨s, hs, (List.append_nil _).symm⟩⟩
    | some op => exact ⟨statement_marked_eq_iff d hop, fun _ hs => params_statement_marked hop hs⟩

/-- A comparison that is spelled in a way of its own takes both forms of a key for the same name,
    behind a left side that binds a parameter. -/
theorem statement_marked_eq_key_iff_spelling :
    let left : Operand := .expression (.sql "coalesce(name, ?)" [.string "?"])
    let marked : Predicate := ⟨left, some " not\tLike ", .value (.string "home.city"), true⟩
    let key : Predicate := ⟨left, some " not\tLike ", .key "home.city", true⟩
    let d := Dialect.ofDatabase (some .mysql)
    let s : Statement :=
      ⟨"coalesce(name, ?) NOT LIKE \x60home\x60.\x60city\x60", [.string "?"]⟩
    marked.rendering.statement d = .ok s ∧ key.rendering.statement d = .ok s ∧
      ∃ l, left.leftSide.statement d = .ok l ∧ s.params = l.params := by
  intro left marked key d s
  have hs : marked.rendering.statement d = .ok s := by decide +kernel
  have hmember : marked.asksMembership = false := by decide +kernel
  obtain ⟨hiff, hparams⟩ :=
    statement_marked_eq_key_iff d left (some " not\tLike ") "home.city" true
  obtain ⟨l, hl, hbound⟩ := hparams s hs
  rw [hmember] at hbound
  exact ⟨hs, (hiff.2 hmember).symm.trans hs, l, hl, hbound.trans (List.append_nil _)⟩

/-- Membership takes only the marked string, and binds it. -/
theorem membership_binds_marked :
    let marked : Predicate := ⟨.key "a", some "IN", .value (.string "b"), true⟩
    let key : Predicate := ⟨.key "a", some "IN", .key "b", false⟩
    let d := Dialect.ofDatabase (some .postgres)
    marked.rendering.statement d = .ok ⟨"\"a\" IN (?)", [.string "b"]⟩ ∧
      key.rendering.statement d = .error (.typeMismatch (.listFor .isIn) "key") ∧
        marked.rendering.statement d ≠ key.rendering.statement d := by
  decide +kernel

end Predicate

/-! ## Expressions as sets of values -/

/-- The text of an expression that is written as it is. -/
def Expression.ownText? : Expression → Option String
  | raw text => some text
  | sql text _ => some text
  | key _ _ => none

/-- What is written for such a text as a set of values. -/
def memberText (text : String) : String :=
  if text.toList.head? = some '(' then text else "(" ++ text ++ ")"

section members

variable {R : SpanReader} {text : String}

/-- A balanced text is written as one group if it is one, or does not begin with a parenthesis. -/
theorem isGroup_memberText_iff (h : R.Balanced text.toList) :
    R.IsGroup (Text.trimChars (memberText text).toList) ↔
      (text.toList.head? = some '(' → R.IsGroup (Text.trimChars text.toList)) := by
  unfold memberText
  by_cases hopen : text.toList.head? = some '('
  · rw [if_pos hopen]
    exact ⟨fun hgroup _ => hgroup, fun hgroup => hgroup hopen⟩
  · have hgroup := SpanReader.isGroup_enclosed h
    have htext : ("(" ++ text ++ ")").toList = '(' :: text.toList ++ [')'] := by simp
    rw [if_neg hopen, htext, hgroup.trimChars_eq]
    exact iff_of_true hgroup fun hopen' => absurd hopen' hopen

/-- Otherwise there is more behind the group that it begins with. -/
theorem exists_more_of_not_isGroup (h : R.Balanced text.toList)
    (hgroup : ¬ R.IsGroup (Text.trimChars (memberText text).toList)) :
    ∃ group more, (memberText text).toList = group ++ more ∧ R.IsGroup group ∧
      R.Balanced more ∧ more.all Text.isBlank = false := by
  obtain ⟨hopen, hnot⟩ := Classical.not_imp.1 (mt (isGroup_memberText_iff h).2 hgroup)
  obtain ⟨group, more, htext, hfirst, hmore⟩ := SpanReader.exists_group_append h hopen
  have hwritten : memberText text = text := if_pos hopen
  rw [hwritten]
  refine ⟨group, more, htext, hfirst, hmore, ?_⟩
  -- if only blank characters followed the first group, trimming would leave that group
  by_contra hblank
  rw [Bool.not_eq_false] at hblank
  rw [htext, hfirst.trimChars_append hblank] at hnot
  exact hnot hfirst

theorem Expression.startsParenthesis_iff {e : Expression} (h : e.ownText? = some text) :
    e.startsParenthesis = true ↔ text.toList.head? = some '(' := by
  cases e with
  | raw t =>
    obtain rfl := Option.some.inj h
    exact beq_iff_eq
  | sql t ps =>
    obtain rfl := Option.some.inj h
    exact beq_iff_eq
  | key n a => exact absurd h nofun

/-- The text is all of the expression's statement, and its parameters come with it. -/
theorem Expression.statement_of_ownText {e : Expression} (h : e.ownText? = some text)
    (db : Option Database) :
    ∃ ps, (Rendering.expression e).statement (.ofDatabase db) = .ok ⟨text, ps⟩ := by
  rw [Rendering.statement_expression (Dialect.render?_ofDatabase db e)]
  cases e with
  | raw t =>
    obtain rfl := Option.some.inj h
    exact ⟨[], congrArg Except.ok (Statement.ext String.empty_append rfl)⟩
  | sql t ps =>
    obtain rfl := Option.some.inj h
    exact ⟨ps, congrArg Except.ok (Statement.ext String.empty_append rfl)⟩
  | key n a => exact absurd h nofun

/-- The statement of a predicate that looks for values in an expression. -/
theorem Predicate.statement_member (db : Option Database) {p : Predicate} {op : Operator}
    {e : Expression} (hop : p.readOperator = .ok (some op)) (hmember : op.isMembership = true)
    (hright : p.right = .expression e) (htext : e.ownText? = some text) :
    ∃ ps, p.rendering.statement (.ofDatabase db) =
      (p.left.leftSide.statement (.ofDatabase db)).map fun l =>
        l ++ ⟨" " ++ op.sql ++ " ", []⟩ ++ ⟨memberText text, ps⟩ := by
  have hrendering : p.rendering = p.left.leftSide ++ .text (" " ++ op.sql ++ " ") ++
      if e.startsParenthesis then .expression e else parenthesized (.expression e) := by
    unfold rendering
    rw [hop]
    dsimp only
    rw [if_pos hmember]
    unfold membership
    rw [hright]
    rfl
  obtain ⟨ps, hps⟩ := Expression.statement_of_ownText htext db
  have hbehind : (if e.startsParenthesis then Rendering.expression e
      else parenthesized (.expression e)).statement (.ofDatabase db) =
        .ok ⟨memberText text, ps⟩ := by
    have hstarts := Expression.startsParenthesis_iff htext
    unfold memberText
    -- parentheses are written only if the text does not open one at its start
    by_cases hopen : e.startsParenthesis = true
    · rw [if_pos hopen, if_pos (hstarts.1 hopen), hps]
    · rw [if_neg hopen, if_neg (mt hstarts.2 hopen), parenthesized, Rendering.statement_append,
        Rendering.statement_append, Rendering.statement_text, Rendering.statement_text, hps]
      exact congrArg Except.ok (Statement.ext rfl (List.append_nil ps))
  refine ⟨ps, ?_⟩
  rw [hrendering, Rendering.statement_append, Rendering.statement_append,
    Rendering.statement_text, hbehind]
  cases p.left.leftSide.statement (.ofDatabase db) <;> rfl

/-- What is written behind the operator for values of a balanced expression, apart from white space
    around it, is one group if and only if the expression is one or does not begin with a
    parenthesis. If it is not, a group stands behind the operator and then more. This is so for
    every way to read quoted spans, and whether the text brings parameters along or not. -/
theorem Predicate.statement_member_isGroup_iff (R : SpanReader) (db : Option Database)
    {p : Predicate} {op : Operator} {e : Expression} (hop : p.readOperator = .ok (some op))
    (hmember : op.isMembership = true) (hright : p.right = .expression e)
    (htext : e.ownText? = some text) (hbalanced : R.Balanced text.toList) {s : Statement}
    (hs : p.rendering.statement (.ofDatabase db) = .ok s) :
    ∃ l written : Statement, p.left.leftSide.statement (.ofDatabase db) = .ok l ∧
      s = l ++ ⟨" " ++ op.sql ++ " ", []⟩ ++ written ∧
      (R.IsGroup (Text.trimChars written.sql.toList) ↔
        (text.toList.head? = some '(' → R.IsGroup (Text.trimChars text.toList))) ∧
      (¬ R.IsGroup (Text.trimChars written.sql.toList) →
        ∃ group more, written.sql.toList = group ++ more ∧ R.IsGroup group ∧
          R.Balanced more ∧ more.all Text.isBlank = false) := by
  obtain ⟨ps, hstatement⟩ := statement_member db hop hmember hright htext
  rw [hs] at hstatement
  obtain ⟨l, hl, hls⟩ := Outcome.map_eq_ok_iff.1 hstatement.symm
  exact ⟨l, ⟨memberText text, ps⟩, hl, hls.symm, isGroup_memberText_iff hbalanced,
    exists_more_of_not_isGroup hbalanced⟩

/-- A subquery in parentheses of its own, with white space behind it, stays one group, although
    one of its strings holds a parenthesis behind a quote that a backslash escapes. -/
theorem Predicate.statement_member_isGroup_iff_escaped :
    let R := SpanReader.escaping
    let text := "(SELECT author_id FROM posts WHERE note = '\\')' AND score > ?) "
    let p : Predicate := ⟨.key "id", some "not in", .expression (.sql text [.int 10]), false⟩
    let d := Dialect.ofDatabase (some .mysql)
    R.Balanced text.toList ∧
      ∃ l written : Statement, p.left.leftSide.statement d = .ok l ∧
        p.rendering.statement d = .ok (l ++ ⟨" NOT IN ", []⟩ ++ written) ∧
          R.IsGroup (Text.trimChars written.sql.toList) := by
  intro R text p d
  have hbalanced : R.Balanced text.toList := by decide +kernel
  -- the escaped quote leaves the string open, so the parenthesis in it does not count
  have hgroup : R.IsGroup (Text.trimChars text.toList) := by decide +kernel
  have hop : p.readOperator = .ok (some .notIn) := by decide +kernel
  have hs : p.rendering.statement d = .ok ⟨"\x60id\x60 NOT IN " ++ text, [.int 10]⟩ := by
    decide +kernel
  obtain ⟨l, written, hl, hparts, hiff, -⟩ :=
    statement_member_isGroup_iff R (some .mysql) hop rfl rfl rfl hbalanced hs
  exact ⟨hbalanced, l, written, hl, hs.trans (congrArg Except.ok hparts), hiff.2 fun _ => hgroup⟩

/-- Two subqueries in parentheses with a set operation between them are balanced, and are written
    as they are: the parenthesis behind the operator is closed before the end. -/
theorem Predicate.statement_member_not_isGroup :
    let R := SpanReader.doubling
    let text := "(SELECT 1) UNION (SELECT 2)"
    let p : Predicate := ⟨.key "a", some "IN", .expression (.raw text), false⟩
    Text.blank text = false ∧ R.Balanced text.toList ∧
      p.rendering.statement (.ofDatabase (some .postgres)) =
        .ok ⟨"\"a\" IN (SELECT 1) UNION (SELECT 2)", []⟩ ∧
      ¬ R.IsGroup (Text.trimChars text.toList) := by
  decide +kernel

end members

end EntitySql
