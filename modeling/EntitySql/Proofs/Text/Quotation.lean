import EntitySql.Proofs.Text.Placeholder

/-! # Quoted texts read back

    What a dialect quotes can be read back from its text alone.

    A quoted name is a sequence of pieces with dots between them: stars, and
    spans between two delimiters inside of which the delimiter only occurs
    doubled. Each sequence of such pieces is read in one way only
    (`readName_intercalate`), so a doubled delimiter, a dot or a star inside of
    a span never passes for the end of a piece. The pieces of a quoted name hold
    the parts of the name in order, and outside of spans a reader of SQL finds
    nothing of it but dots and stars.

    A string literal ends at the first quote that is neither doubled nor, where
    backslashes escape, behind one. A quoted value is one literal from its first
    character to its last, with that value (`readLiteral_append`).
-/

namespace EntitySql

namespace Text

/-! ## Doubled delimiters -/

/-- The delimiter occurs only as one of two in a row. -/
inductive OnlyDoubled (q : Char) : List Char → Prop where
  | nil : OnlyDoubled q []
  | other {c : Char} {cs : List Char} (hc : c ≠ q) (h : OnlyDoubled q cs) : OnlyDoubled q (c :: cs)
  | doubled {cs : List Char} (h : OnlyDoubled q cs) : OnlyDoubled q (q :: q :: cs)

/-- Writes two delimiters in a row once. -/
def undouble (q : Char) : List Char → List Char
  | [] => []
  | [c] => [c]
  | c :: d :: cs => if c = q ∧ d = q then q :: undouble q cs else c :: undouble q (d :: cs)

theorem onlyDoubled_double (q : Char) (cs : List Char) : OnlyDoubled q (double q cs) := by
  induction cs with
  | nil => exact .nil
  | cons c cs ih =>
    rw [double]
    split
    · exact .doubled ih
    · next hc => exact .other hc ih

theorem undouble_cons {q c : Char} (hc : c ≠ q) (cs : List Char) :
    undouble q (c :: cs) = c :: undouble q cs := by
  cases cs with
  | nil => rfl
  | cons d cs => rw [undouble, if_neg fun h => hc h.1]

/-- What is doubled can be read back. -/
theorem undouble_double (q : Char) (cs : List Char) : undouble q (double q cs) = cs := by
  induction cs with
  | nil => rfl
  | cons c cs ih =>
    rw [double]
    split
    · next hc => rw [undouble, if_pos ⟨rfl, rfl⟩, ih, hc]
    · next hc => rw [undouble_cons hc, ih]

/-! ## Outside of spans -/

namespace Span

/-- The characters of a text that stand outside of spans. -/
def outside : Span → List Char → List Char
  | _, [] => []
  | state, c :: cs =>
    (if state = none ∧ isQuote c = false then [c] else []) ++ outside (state.step c) cs

theorem outside_append (state : Span) (cs ds : List Char) :
    outside state (cs ++ ds) = outside state cs ++ outside (state.after cs) ds := by
  induction cs generalizing state with
  | nil => rfl
  | cons c cs ih => rw [List.cons_append, outside, outside, ih, after_cons, List.append_assoc]

/-- Nothing of a quoted text stands outside of its span. -/
theorem outside_enclose {q : Char} (hq : isQuote q = true) (cs : List Char) :
    outside none (enclose q cs) = [] := by
  have hopen : Span.step none q = some q := by simp [step, hq]
  have hclose : Span.step (some q) q = none := by simp [step]
  have hinside : ∀ cs, outside (some q) (double q cs ++ [q]) = [] := by
    intro cs
    induction cs with
    | nil => simp [outside]
    | cons c cs ih =>
      rw [double]
      split
      -- between the two delimiters the reader is outside, but the second opens a span again
      · simp [outside, hopen, hclose, hq, ih]
      · next hc =>
        have hstay : Span.step (some q) c = some q := by simp [step, hc]
        simp [outside, hstay, ih]
  show outside none (q :: (double q cs ++ [q])) = []
  simp [outside, hopen, hq, hinside]

end Span

end Text

/-! ## Names -/

/-- A part of a quoted name. -/
inductive NamePiece where
  | star
  /-- What stands between two delimiters -/
  | span (body : List Char)
  deriving DecidableEq, Repr

namespace NamePiece

def written (q : Char) : NamePiece → List Char
  | star => ['*']
  | span body => q :: body ++ [q]

/-- Inside of a span the delimiter only occurs doubled. -/
def WellFormed (q : Char) : NamePiece → Prop
  | star => True
  | span body => Text.OnlyDoubled q body

/-- The part of the name that a piece stands for. -/
def content (q : Char) : NamePiece → List Char
  | star => ['*']
  | span body => Text.undouble q body

/-- The piece for a part of a name. -/
def ofPart (q : Char) (part : List Char) : NamePiece :=
  if part = ['*'] then star else span (Text.double q part)

end NamePiece

/-- What a reader of quoted names is in the middle of. -/
inductive NameReader where
  /-- A piece is to begin -/
  | start
  | star
  /-- A span, with its characters so far from the last to the first -/
  | inside (body : List Char)
  /-- A delimiter in a span, which ends it unless another one follows -/
  | delimiter (body : List Char)

namespace NameReader

/-- The pieces of a quoted name, from some state of the reader on. -/
def pieces (q : Char) : NameReader → List Char → Option (List NamePiece)
  | start, [] => none
  | start, c :: cs =>
    if c = q then pieces q (inside []) cs
    else if c = '*' then pieces q star cs
    else none
  | star, [] => some [.star]
  | star, c :: cs => if c = '.' then (pieces q start cs).map (.star :: ·) else none
  | inside _, [] => none
  | inside body, c :: cs => pieces q (if c = q then delimiter body else inside (c :: body)) cs
  | delimiter body, [] => some [.span body.reverse]
  | delimiter body, c :: cs =>
    if c = q then pieces q (inside (q :: q :: body)) cs
    else if c = '.' then (pieces q start cs).map (.span body.reverse :: ·)
    else none

variable {q : Char}

/-- A text in which the delimiter only occurs doubled leaves the reader in the span. -/
theorem pieces_body {cs : List Char} (h : Text.OnlyDoubled q cs) (body rest : List Char) :
    pieces q (inside body) (cs ++ q :: rest) = pieces q (delimiter (cs.reverse ++ body)) rest := by
  induction h generalizing body with
  | nil => simp [pieces]
  | other hc _ ih => simp [pieces, hc, ih]
  | doubled _ ih => simp [pieces, ih]

/-- Where the reader is behind a piece. -/
def behind : NamePiece → NameReader
  | .star => star
  | .span body => delimiter body.reverse

variable (hdot : q ≠ '.') (hstar : q ≠ '*')

include hstar in
theorem pieces_written {p : NamePiece} (h : p.WellFormed q) (rest : List Char) :
    pieces q start (p.written q ++ rest) = pieces q (behind p) rest := by
  cases p with
  | star => simp [NamePiece.written, pieces, behind, hstar.symm]
  | span body =>
    have hbody := pieces_body h [] rest
    rw [List.append_nil] at hbody
    simp [NamePiece.written, pieces, behind, hbody]

theorem pieces_behind_nil (p : NamePiece) : pieces q (behind p) [] = some [p] := by
  cases p <;> simp [behind, pieces]

include hdot in
theorem pieces_behind_dot (p : NamePiece) (rest : List Char) :
    pieces q (behind p) ('.' :: rest) = (pieces q start rest).map (p :: ·) := by
  cases p <;> simp [behind, pieces, hdot.symm]

end NameReader

/-- The pieces of a quoted name. -/
def readName (q : Char) (cs : List Char) : Option (List NamePiece) := NameReader.pieces q .start cs

/-- Pieces with dots between them are read back, each one for what it is. -/
theorem readName_intercalate {q : Char} (hdot : q ≠ '.') (hstar : q ≠ '*') {ps : List NamePiece}
    (hne : ps ≠ []) (h : ∀ p ∈ ps, p.WellFormed q) :
    readName q (['.'].intercalate (ps.map (NamePiece.written q))) = some ps := by
  induction ps with
  | nil => exact absurd rfl hne
  | cons p ps ih =>
    obtain ⟨hp, hps⟩ := List.forall_mem_cons.1 h
    cases ps with
    | nil =>
      have hlast := NameReader.pieces_written hstar hp []
      rw [List.append_nil, NameReader.pieces_behind_nil] at hlast
      simpa [readName] using hlast
    | cons p' ps =>
      -- the reader stops at the dot behind the first piece; behind it the others are read by
      -- induction
      have hrest : readName q _ = some (p' :: ps) := ih (by simp) hps
      rw [List.map_cons, List.map_cons, List.intercalate_cons_cons, List.append_assoc,
        List.singleton_append, readName, NameReader.pieces_written hstar hp,
        NameReader.pieces_behind_dot hdot, ← List.map_cons]
      show (readName q _).map _ = _
      rw [hrest]
      rfl

/-- Texts that each leave the reader outside of spans can be looked at one by one. -/
theorem Text.Span.outside_intercalate {parts : List (List Char)}
    (h : ∀ part ∈ parts, Text.Span.after none part = none) :
    Text.Span.outside none (['.'].intercalate parts) =
      ['.'].intercalate (parts.map (Text.Span.outside none)) := by
  induction parts with
  | nil => rfl
  | cons part parts ih =>
    obtain ⟨hpart, hparts⟩ := List.forall_mem_cons.1 h
    cases parts with
    | nil => simp
    | cons next parts =>
      -- each part ends outside every quote, so the dot is seen and the next part starts afresh
      have hdot : Text.Span.outside none ['.'] = ['.'] := by decide
      have hafter : Text.Span.after none ['.'] = none := by decide
      rw [List.intercalate_cons_cons, outside_append, outside_append, after_append, hpart, hafter,
        hdot, ih hparts, List.map_cons, List.map_cons, List.map_cons, List.intercalate_cons_cons]

namespace NamePiece

variable {q : Char}

theorem written_ofPart (part : List Char) :
    (ofPart q part).written q = Dialect.quotePart q part := by
  unfold ofPart Dialect.quotePart
  split
  · next h => rw [h]; rfl
  · rfl

theorem wellFormed_ofPart (part : List Char) : (ofPart q part).WellFormed q := by
  unfold ofPart
  split
  · trivial
  · exact Text.onlyDoubled_double q part

theorem content_ofPart (part : List Char) : (ofPart q part).content q = part := by
  unfold ofPart
  split
  · next h => exact h.symm
  · exact Text.undouble_double q part

theorem outside_quotePart (hq : Text.isQuote q = true) (part : List Char) :
    Text.Span.outside none (Dialect.quotePart q part) = if part = ['*'] then ['*'] else [] := by
  unfold Dialect.quotePart
  split
  · next h => rw [h]; rfl
  · exact Text.Span.outside_enclose hq part

/-- The pieces for the parts of a name. -/
def ofName (q : Char) (name : String) : List NamePiece := (name.toList.splitOn '.').map (ofPart q)

theorem ofName_ne_nil (name : String) : ofName q name ≠ [] := by
  intro h
  exact List.splitOnP_ne_nil _ _ (List.map_eq_nil_iff.1 h)

theorem map_written_ofName (name : String) :
    (ofName q name).map (written q) = (name.toList.splitOn '.').map (Dialect.quotePart q) := by
  rw [ofName, List.map_map]
  exact List.map_congr_left fun part _ => written_ofPart part

theorem wellFormed_ofName (name : String) : ∀ p ∈ ofName q name, p.WellFormed q :=
  List.forall_mem_map.2 fun part _ => wellFormed_ofPart part

theorem map_content_ofName (name : String) :
    (ofName q name).map (content q) = name.toList.splitOn '.' := by
  rw [ofName, List.map_map]
  exact List.map_id'' content_ofPart _

end NamePiece

namespace Database

/-- The character that a database quotes names with. -/
def nameQuote : Database → Char
  | postgres => '"'
  | mysql => '\x60'
  | sqlite => '"'

theorem isQuote_nameQuote (db : Database) : Text.isQuote db.nameQuote = true := by
  cases db <;> decide

theorem nameQuote_ne (db : Database) : db.nameQuote ≠ '.' ∧ db.nameQuote ≠ '*' := by
  cases db <;> decide

variable (db : Database) (name : String)

theorem toList_quoteName : (db.dialect.quoteName name).toList =
    ['.'].intercalate ((name.toList.splitOn '.').map (Dialect.quotePart db.nameQuote)) := by
  have hquote : db.dialect.quoteName name = Dialect.quoteQualified db.nameQuote name := by
    cases db <;> rfl
  rw [hquote, Dialect.quoteQualified, String.toList_ofList]

theorem readName_quoteName : readName db.nameQuote (db.dialect.quoteName name).toList =
    some (NamePiece.ofName db.nameQuote name) := by
  obtain ⟨hdot, hstar⟩ := db.nameQuote_ne
  rw [toList_quoteName, ← NamePiece.map_written_ofName]
  exact readName_intercalate hdot hstar (NamePiece.ofName_ne_nil name)
    (NamePiece.wellFormed_ofName name)

theorem outside_quoteName : Text.Span.outside none (db.dialect.quoteName name).toList =
    ['.'].intercalate ((name.toList.splitOn '.').map fun part =>
      if part = ['*'] then ['*'] else []) := by
  have hafter : ∀ part ∈ (name.toList.splitOn '.').map (Dialect.quotePart db.nameQuote),
      Text.Span.after none part = none :=
    List.forall_mem_map.2 fun part _ => (Dialect.passes_quotePart db.isQuote_nameQuote part).1
  rw [toList_quoteName, Text.Span.outside_intercalate hafter, List.map_map]
  congr 1
  exact List.map_congr_left fun part _ => NamePiece.outside_quotePart db.isQuote_nameQuote part

/-- A quoted name is read back from its text: a star or a span for each part of the name, with
    dots between them, where a delimiter inside of a span only occurs doubled and the pieces hold
    the parts of the name in order. So different names have different texts, and outside of spans
    nothing of a name stands but the dots between its parts and the parts that are a star. -/
theorem quoteName_reads_back :
    (∃ pieces, readName db.nameQuote (db.dialect.quoteName name).toList = some pieces ∧
      (db.dialect.quoteName name).toList =
        ['.'].intercalate (pieces.map (NamePiece.written db.nameQuote)) ∧
      (∀ p ∈ pieces, p.WellFormed db.nameQuote) ∧
      pieces.map (NamePiece.content db.nameQuote) = name.toList.splitOn '.' ∧
      ['.'].intercalate (pieces.map (NamePiece.content db.nameQuote)) = name.toList) ∧
    (∀ other, db.dialect.quoteName other = db.dialect.quoteName name → other = name) ∧
    Text.Span.outside none (db.dialect.quoteName name).toList =
      ['.'].intercalate ((name.toList.splitOn '.').map fun part =>
        if part = ['*'] then ['*'] else []) := by
  have hjoined (name : String) :
      ['.'].intercalate ((NamePiece.ofName db.nameQuote name).map
        (NamePiece.content db.nameQuote)) = name.toList := by
    rw [NamePiece.map_content_ofName, List.intercalate_splitOn]
  refine ⟨⟨_, db.readName_quoteName name, ?_, NamePiece.wellFormed_ofName name,
    NamePiece.map_content_ofName name, hjoined name⟩, ?_, db.outside_quoteName name⟩
  · rw [toList_quoteName, NamePiece.map_written_ofName]
  · intro other h
    -- one text has one reading, and each of the two names is put together from it
    have hpieces : NamePiece.ofName db.nameQuote other = NamePiece.ofName db.nameQuote name := by
      apply Option.some.inj
      rw [← db.readName_quoteName, ← db.readName_quoteName, h]
    apply String.toList_inj.1
    rw [← hjoined other, hpieces, hjoined name]

end Database

/-! ## String literals -/

/-- What a reader of string literals is in the middle of. -/
inductive LiteralReader where
  | inside
  /-- A quote in the literal, which ends it unless another one follows -/
  | quote
  /-- A backslash that escapes -/
  | backslash

namespace LiteralReader

variable (escapes : Bool) (letter : Char → List Char)

/-- A character at the front of the value that is read. -/
def withFront (front : List Char) (r : List Char × List Char) : List Char × List Char :=
  (front ++ r.1, r.2)

/-- The value of a literal and what follows it, from some state of the reader on. Whether
    backslashes escape depends on the dialect; an escaped quote or backslash stands for itself,
    and any other escaped character for what is given. -/
def value : LiteralReader → List Char → Option (List Char × List Char)
  | inside, [] => none
  | inside, c :: cs =>
    if c = '\'' then value quote cs
    else if escapes ∧ c = '\\' then value backslash cs
    else (value inside cs).map (withFront [c])
  | quote, [] => some ([], [])
  | quote, c :: cs =>
    if c = '\'' then (value inside cs).map (withFront ['\'']) else some ([], c :: cs)
  | backslash, [] => none
  | backslash, c :: cs =>
    (value inside cs).map (withFront (if c = '\'' ∨ c = '\\' then [c] else letter c))

/-- What stands between the quotes of a literal. -/
def body (cs : List Char) : List Char :=
  Text.double '\'' (if escapes then Text.double '\\' cs else cs)

theorem value_body (cs : List Char) {rest : List Char} (hrest : rest.head? ≠ some '\'') :
    value escapes letter inside (body escapes cs ++ '\'' :: rest) = some (cs, rest) := by
  induction cs with
  | nil =>
    have hend : value escapes letter quote rest = some ([], rest) := by
      cases rest with
      | nil => rfl
      | cons c cs =>
        have hc : c ≠ '\'' := fun e => hrest (congrArg some e)
        simp [value, hc]
    cases escapes <;> simp [body, value, hend]
  | cons c cs ih =>
    by_cases hquote : c = '\''
    · subst hquote
      have hbody : body escapes ('\'' :: cs) = '\'' :: '\'' :: body escapes cs := by
        cases escapes <;> rfl
      simp [hbody, value, ih, withFront]
    · by_cases hback : escapes ∧ c = '\\'
      -- the first of two backslashes escapes the second
      · obtain ⟨rfl, rfl⟩ := hback
        have hbody : body true ('\\' :: cs) = '\\' :: '\\' :: body true cs := rfl
        simp [hbody, value, ih, withFront]
      · have hbody : body escapes (c :: cs) = c :: body escapes cs := by
          cases escapes with
          | false => simp [body, Text.double, hquote]
          | true =>
            have hc : c ≠ '\\' := fun e => hback ⟨rfl, e⟩
            simp [body, Text.double, hquote, hc]
        simp only [hbody, List.cons_append, value, hquote, hback, if_false, ih]
        rfl

end LiteralReader

/-- Reads a literal from its opening quote on: its value and what follows it. -/
def readLiteral (escapes : Bool) (letter : Char → List Char) :
    List Char → Option (List Char × List Char)
  | [] => none
  | c :: cs => if c = '\'' then LiteralReader.value escapes letter .inside cs else none

/-- Whether backslashes escape in the literals of a database. Without a dialect they do not. -/
def Database.escapesBackslash : Option Database → Bool
  | some mysql => true
  | _ => false

/-- A quoted value with anything but a quote behind it is one literal with that value. -/
theorem readLiteral_append (db : Option Database) (letter : Char → List Char) (value : String)
    {rest : List Char} (hrest : rest.head? ≠ some '\'') :
    readLiteral (Database.escapesBackslash db) letter
      (((Dialect.ofDatabase db).quoteValue value).toList ++ rest) = some (value.toList, rest) := by
  have hquoted : ((Dialect.ofDatabase db).quoteValue value).toList =
      '\'' :: LiteralReader.body (Database.escapesBackslash db) value.toList ++ ['\''] := by
    cases db with
    | none => exact String.toList_ofList
    | some db => cases db <;> exact String.toList_ofList
  rw [hquoted, List.append_assoc, List.cons_append, readLiteral, if_pos rfl]
  exact LiteralReader.value_body _ letter value.toList hrest

/-- A quoted value is one literal, whatever quotes and backslashes it holds: read from its first
    character, by the rule of the database or the standard one if there is no dialect, the literal
    ends at its last character and has that value. It does not matter what escaped characters
    other than quotes and backslashes stand for. -/
theorem Dialect.readLiteral_quoteValue (db : Option Database) (letter : Char → List Char)
    (value : String) :
    readLiteral (Database.escapesBackslash db) letter
      ((Dialect.ofDatabase db).quoteValue value).toList = some (value.toList, []) := by
  have hend : ([] : List Char).head? ≠ some '\'' := nofun
  have halone := readLiteral_append db letter value hend
  rwa [List.append_nil] at halone

end EntitySql
