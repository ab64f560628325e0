import EntitySql.Json.Value

/-! # The grammar of JSON texts

    What a JSON text is, apart from how it is read: a value may be written with
    white space wherever the grammar allows any, and a character of a string may
    stand for itself or be escaped in several ways. Numbers are left out.

    Whatever the grammar writes is read (`ofText?_of_writes`). The reader goes
    through a text character by character, so it is enough to know for each
    text of the grammar from which state to which other one it takes the
    reader, whatever comes behind it (`Takes`).
-/

namespace EntitySql.Json

/-! ## Strings -/

/-- A hexadecimal digit in either case. -/
def IsHexDigit (c : Char) (n : Nat) : Prop :=
  n < 16 ∧ (c = Nat.digitChar n ∨ c = (Nat.digitChar n).toUpper)

/-- Four hexadecimal digits of a number. -/
inductive IsCode : List Char → Nat → Prop where
  | digits {a b c d : Char} {i j k l : Nat} (ha : IsHexDigit a i) (hb : IsHexDigit b j)
    (hc : IsHexDigit c k) (hd : IsHexDigit d l) :
    IsCode [a, b, c, d] (((i * 16 + j) * 16 + k) * 16 + l)

/-- The characters that may stand behind a backslash, and what they stand for. -/
def letterEscapes : List (Char × Char) :=
  [('"', '"'), ('\\', '\\'), ('/', '/'), ('b', '\x08'), ('f', '\x0c'), ('n', '\n'), ('r', '\r'),
    ('t', '\t')]

/-- The characters between the quotes of a string spell a text. -/
inductive Spells : List Char → List Char → Prop where
  | nil : Spells [] []
  /-- A character that stands for itself -/
  | plain {c : Char} {lexeme text : List Char} (hquote : c ≠ '"') (hback : c ≠ '\\')
    (hcontrol : 0x20 ≤ c.toNat) (h : Spells lexeme text) : Spells (c :: lexeme) (c :: text)
  | letter {e c : Char} {lexeme text : List Char} (he : (e, c) ∈ letterEscapes)
    (h : Spells lexeme text) : Spells ('\\' :: e :: lexeme) (c :: text)
  /-- A character by its code -/
  | code {c : Char} {digits lexeme text : List Char} (hcode : IsCode digits c.toNat)
    (h : Spells lexeme text) : Spells ('\\' :: 'u' :: (digits ++ lexeme)) (c :: text)
  /-- A character beyond four digits by the codes of its surrogate pair -/
  | pair {c : Char} {high low lexeme text : List Char} (hc : 0x10000 ≤ c.toNat)
    (hhigh : IsCode high (0xD800 + (c.toNat - 0x10000) / 0x400))
    (hlow : IsCode low (0xDC00 + (c.toNat - 0x10000) % 0x400)) (h : Spells lexeme text) :
    Spells ('\\' :: 'u' :: (high ++ '\\' :: 'u' :: (low ++ lexeme))) (c :: text)

/-! ## Values -/

def Space (cs : List Char) : Prop := ∀ c ∈ cs, c = ' ' ∨ c = '\t' ∨ c = '\n' ∨ c = '\r'

mutual

/-- A text writes a value, with white space around it or without. -/
inductive Writes : Json → List Char → Prop where
  | space {v : Json} {ws cs ws' : List Char} (hws : Space ws) (h : Writes v cs)
    (hws' : Space ws') : Writes v (ws ++ cs ++ ws')
  | null : Writes .null ['n', 'u', 'l', 'l']
  | true : Writes (.bool true) ['t', 'r', 'u', 'e']
  | false : Writes (.bool false) ['f', 'a', 'l', 's', 'e']
  | string {lexeme text : List Char} (h : Spells lexeme text) :
    Writes (.string lexeme) ('"' :: lexeme ++ ['"'])
  | emptyArray {ws : List Char} (hws : Space ws) : Writes (.array []) ('[' :: ws ++ [']'])
  | array {items : List Json} {cs : List Char} (h : WritesItems items cs) :
    Writes (.array items) ('[' :: cs ++ [']'])
  | emptyObject {ws : List Char} (hws : Space ws) :
    Writes (.object []) ('\x7b' :: ws ++ ['\x7d'])
  | object {fields : List (List Char × Json)} {cs : List Char} (h : WritesFields fields cs) :
    Writes (.object fields) ('\x7b' :: cs ++ ['\x7d'])

/-- A text writes one or more values with commas between them. -/
inductive WritesItems : List Json → List Char → Prop where
  | one {v : Json} {cs : List Char} (h : Writes v cs) : WritesItems [v] cs
  | cons {v : Json} {vs : List Json} {cs ds : List Char} (h : Writes v cs)
    (hrest : WritesItems vs ds) : WritesItems (v :: vs) (cs ++ ',' :: ds)

inductive WritesField : List Char × Json → List Char → Prop where
  | field {ws name text ws' cs : List Char} {v : Json} (hws : Space ws) (hname : Spells name text)
    (hws' : Space ws') (h : Writes v cs) :
    WritesField (name, v) (ws ++ ('"' :: name ++ ['"']) ++ ws' ++ ':' :: cs)

/-- A text writes one or more fields with commas between them. -/
inductive WritesFields : List (List Char × Json) → List Char → Prop where
  | one {f : List Char × Json} {cs : List Char} (h : WritesField f cs) : WritesFields [f] cs
  | cons {f : List Char × Json} {fs : List (List Char × Json)} {cs ds : List Char}
    (h : WritesField f cs) (hrest : WritesFields fs ds) : WritesFields (f :: fs) (cs ++ ',' :: ds)

end

theorem hexValue?_of_isHexDigit {c : Char} {n : Nat} (h : IsHexDigit c n) :
    hexValue? c = some n := by
  have hall : ∀ n < 16, hexValue? (Nat.digitChar n) = some n ∧
      hexValue? (Nat.digitChar n).toUpper = some n := by decide
  obtain ⟨hn, rfl | rfl⟩ := h
  · exact (hall n hn).1
  · exact (hall n hn).2

/-! ## What a text does to the reader -/

/-- The tokens of a text, from some state of the scan on, read from some state of the reader
    on. -/
def Reader.read (r : Reader) (scan : Scan) (cs : List Char) : Option Reader :=
  (scan.tokens cs).bind fun ts => ts.foldlM Reader.step r

/-- A text takes the reader from one state to another, whatever comes behind it. -/
def Reader.Takes (r : Reader) (cs : List Char) (r' : Reader) : Prop :=
  ∀ rest, r.read .between (cs ++ rest) = r'.read .between rest

namespace Reader

variable {r r' r'' : Reader} {cs ds : List Char}

theorem takes_nil (r : Reader) : r.Takes [] r := fun _ => rfl

theorem Takes.append (h : r.Takes cs r') (h' : r'.Takes ds r'') : r.Takes (cs ++ ds) r'' := by
  intro rest
  rw [List.append_assoc, h, h']

/-- After a character the reader takes the tokens that it completes. -/
theorem read_cons {scan scan' : Scan} {c : Char} {ts : List Token}
    (h : scan.step c = some (ts, scan')) (cs : List Char) :
    r.read scan (c :: cs) = (ts.foldlM step r).bind fun r' => r'.read scan' cs := by
  have htokens : scan.tokens (c :: cs) = (scan'.tokens cs).map (ts ++ ·) := by
    rw [Scan.tokens, h]
    cases hrest : scan'.tokens cs <;> simp [hrest]
  unfold read
  rw [htokens]
  cases scan'.tokens cs with
  | none => simp
  | some rest => simp [List.foldlM_append, Option.bind_eq_bind]

/-- A character that completes no token. -/
theorem read_cons_of_silent {scan scan' : Scan} {c : Char} (h : scan.step c = some ([], scan'))
    (cs : List Char) : r.read scan (c :: cs) = r.read scan' cs := read_cons h cs

/-- A character that completes a token. -/
theorem read_cons_of_token {scan scan' : Scan} {c : Char} {t : Token}
    (h : scan.step c = some ([t], scan')) (ht : r.step t = some r') (cs : List Char) :
    r.read scan (c :: cs) = r'.read scan' cs := by
  rw [read_cons h]
  simp [ht]

theorem takes_token {c : Char} {t : Token} (hc : Scan.step .between c = some ([t], .between))
    (ht : r.step t = some r') : r.Takes [c] r' := fun rest => read_cons_of_token hc ht rest

theorem takes_space (hcs : Space cs) : r.Takes cs r := by
  induction cs with
  | nil => exact takes_nil r
  | cons c cs ih =>
    obtain ⟨hc, hcs⟩ := List.forall_mem_cons.1 hcs
    have hskip : Scan.step .between c = some ([], .between) := by
      rcases hc with rfl | rfl | rfl | rfl <;> decide
    intro rest
    rw [List.cons_append, read_cons_of_silent hskip]
    exact ih hcs rest

/-! ## Reading strings -/

theorem read_code {digits : List Char} {n : Nat} (h : IsCode digits n) (seen cs : List Char) :
    r.read (.code seen 4) (digits ++ cs) = r.read (.string (digits.reverse ++ seen)) cs := by
  have hstep {c : Char} {k : Nat} (hc : IsHexDigit c k) (seen : List Char) (n : Nat) :
      Scan.step (.code seen n) c =
        some ([], if n ≤ 1 then .string (c :: seen) else .code (c :: seen) (n - 1)) := by
    simp [Scan.step, hexValue?_of_isHexDigit hc]
  -- the fourth digit ends the escape
  obtain ⟨ha, hb, hc, hd⟩ := h
  simp only [List.cons_append, List.nil_append]
  rw [read_cons_of_silent (hstep ha _ _), if_neg (by decide), read_cons_of_silent (hstep hb _ _),
    if_neg (by decide), read_cons_of_silent (hstep hc _ _), if_neg (by decide),
    read_cons_of_silent (hstep hd _ _), if_pos (by decide)]
  rfl

/-- A backslash and the letter of an escape by code. -/
theorem read_escape_code {digits : List Char} {n : Nat} (h : IsCode digits n)
    (seen cs : List Char) :
    r.read (.string seen) ('\\' :: 'u' :: (digits ++ cs)) =
      r.read (.string (digits.reverse ++ 'u' :: '\\' :: seen)) cs := by
  have hback : Scan.step (.string seen) '\\' = some ([], .escape ('\\' :: seen)) := rfl
  have hletter : Scan.step (.escape ('\\' :: seen)) 'u' =
      some ([], .code ('u' :: '\\' :: seen) 4) := rfl
  rw [read_cons_of_silent hback, read_cons_of_silent hletter, read_code h]

/-- What spells a text is gathered as it stands. -/
theorem read_lexeme {lexeme text : List Char} (h : Spells lexeme text) (seen cs : List Char) :
    r.read (.string seen) (lexeme ++ cs) = r.read (.string (lexeme.reverse ++ seen)) cs := by
  -- each character of the text, however it is written, leads back to where the string goes on
  induction h generalizing seen with
  | nil => rfl
  | @plain c lexeme text hquote hback hcontrol _ ih =>
    have hstep : Scan.step (.string seen) c = some ([], .string (c :: seen)) := by
      simp [Scan.step, hquote, hback, Nat.not_lt.2 hcontrol]
    rw [List.cons_append, read_cons_of_silent hstep, ih, List.reverse_cons, List.append_assoc,
      List.singleton_append]
  | @letter e c lexeme text he _ ih =>
    have hback : Scan.step (.string seen) '\\' = some ([], .escape ('\\' :: seen)) := rfl
    have hletter : Scan.step (.escape ('\\' :: seen)) e =
        some ([], .string (e :: '\\' :: seen)) := by
      have hall : ∀ p ∈ letterEscapes, isEscape p.1 = true := by decide
      simp [Scan.step, hall _ he]
    rw [List.cons_append, List.cons_append, read_cons_of_silent hback,
      read_cons_of_silent hletter, ih]
    simp
  | code hcode _ ih =>
    rw [List.cons_append, List.cons_append, List.append_assoc, read_escape_code hcode, ih]
    simp
  | pair _ hhigh hlow _ ih =>
    rw [List.cons_append, List.cons_append, List.append_assoc, read_escape_code hhigh,
      List.cons_append, List.cons_append, List.append_assoc, read_escape_code hlow, ih]
    simp

theorem takes_string {lexeme text : List Char} (h : Spells lexeme text)
    (ht : r.step (.string lexeme) = some r') : r.Takes ('"' :: lexeme ++ ['"']) r' := by
  have hopen : Scan.step .between '"' = some ([], .string []) := rfl
  have hclose : Scan.step (.string lexeme.reverse) '"' = some ([.string lexeme], .between) := by
    simp [Scan.step]
  intro rest
  rw [List.cons_append, List.cons_append, read_cons_of_silent hopen, List.append_assoc,
    read_lexeme h, List.append_nil]
  exact read_cons_of_token hclose ht rest

/-! ## Reading values -/

/-- The rest of a word. -/
theorem read_word {cs : List Char} (hcs : cs ≠ []) {t : Token} (ht : r.step t = some r')
    (rest : List Char) : r.read (.word cs t) (cs ++ rest) = r'.read .between rest := by
  induction cs with
  | nil => exact absurd rfl hcs
  | cons c cs ih =>
    -- only the last letter completes the token
    cases cs with
    | nil =>
      have hlast : Scan.step (.word [c] t) c = some ([t], .between) := by simp [Scan.step]
      exact read_cons_of_token hlast ht rest
    | cons d ds =>
      have hnext : Scan.step (.word (c :: d :: ds) t) c = some ([], .word (d :: ds) t) := by
        simp [Scan.step]
      rw [List.cons_append, read_cons_of_silent hnext]
      exact ih (by simp)

theorem takes_word {c : Char} {cs : List Char} {t : Token}
    (hc : Scan.step .between c = some ([], .word cs t)) (hcs : cs ≠ [])
    (ht : r.step t = some r') : r.Takes (c :: cs) r' := by
  intro rest
  rw [List.cons_append, read_cons_of_silent hc]
  exact read_word hcs ht rest

/-- The reader may take a value inside of the frames of a stack. -/
def Awaits (r : Reader) (stack : List Frame) : Prop :=
  ∀ t, t ≠ .closeArray → r.step t = start stack t

theorem awaits_value (stack : List Frame) : (value stack).Awaits stack := fun _ _ => rfl

/-- The first item of an array may come where the array might end. -/
theorem awaits_items (stack : List Frame) : (items stack).Awaits (.array [] :: stack) := by
  intro t ht
  cases t with
  | closeArray => exact absurd rfl ht
  | _ => rfl

/-- The reader may take a name behind the given fields. -/
def AwaitsName (r : Reader) (fields : List (List Char × Json)) (stack : List Frame) : Prop :=
  ∀ n, r.step (.string n) = some (colon fields n stack)

theorem awaitsName_fields (stack : List Frame) : (fields stack).AwaitsName [] stack := fun _ => rfl

theorem awaitsName_name (fs : List (List Char × Json)) (stack : List Frame) :
    (name fs stack).AwaitsName fs stack := fun _ => rfl

section punctuation

variable {stack : List Frame} {v : Json} {vs : List Json} {n : List Char}
  {fs : List (List Char × Json)}

theorem takes_openArray (hr : r.Awaits stack) : r.Takes ['['] (items stack) :=
  takes_token rfl (hr .openArray nofun)

theorem takes_openObject (hr : r.Awaits stack) : r.Takes ['\x7b'] (fields stack) :=
  takes_token rfl (hr .openObject nofun)

theorem takes_item_comma :
    (complete v (.array vs :: stack)).Takes [','] (value (.array (v :: vs) :: stack)) :=
  takes_token rfl rfl

theorem takes_item_close :
    (complete v (.array vs :: stack)).Takes [']'] (complete (.array (vs.reverse ++ [v])) stack) :=
  List.reverse_cons ▸ takes_token rfl rfl

theorem takes_colon : (colon fs n stack).Takes [':'] (value (.field fs n :: stack)) :=
  takes_token rfl rfl

theorem takes_field_comma :
    (complete v (.field fs n :: stack)).Takes [','] (name ((n, v) :: fs) stack) :=
  takes_token rfl rfl

theorem takes_field_close : (complete v (.field fs n :: stack)).Takes ['\x7d']
    (complete (.object (fs.reverse ++ [(n, v)])) stack) :=
  List.reverse_cons ▸ takes_token rfl rfl

end punctuation

mutual

/-- A text that writes a value takes the reader to where that value is complete. -/
theorem takes_of_writes : ∀ {v : Json} {cs : List Char}, Writes v cs → ∀ {r : Reader}
    {stack : List Frame}, r.Awaits stack → r.Takes cs (complete v stack)
  | _, _, .space hws h hws', _, _, hr =>
    ((takes_space hws).append (takes_of_writes h hr)).append (takes_space hws')
  | _, _, .null, _, _, hr => takes_word rfl (by simp) (hr .null nofun)
  | _, _, .true, _, _, hr => takes_word rfl (by simp) (hr (.bool true) nofun)
  | _, _, .false, _, _, hr => takes_word rfl (by simp) (hr (.bool false) nofun)
  | _, _, .string h, _, _, hr => takes_string h (hr (.string _) nofun)
  | _, _, .emptyArray hws, _, _, hr =>
    ((takes_openArray hr).append (takes_space hws)).append (takes_token rfl rfl)
  -- the members are read with the array or object open, which is closed behind them
  | _, _, .array h, _, stack, hr =>
    (takes_openArray hr).append (takes_of_writesItems h (awaits_items stack))
  | _, _, .emptyObject hws, _, _, hr =>
    ((takes_openObject hr).append (takes_space hws)).append (takes_token rfl rfl)
  | _, _, .object h, _, stack, hr =>
    (takes_openObject hr).append (takes_of_writesFields h (awaitsName_fields stack))

/-- A text that writes items takes the reader to the end of their array. -/
theorem takes_of_writesItems : ∀ {vs : List Json} {cs : List Char}, WritesItems vs cs →
    ∀ {r : Reader} {items : List Json} {stack : List Frame}, r.Awaits (.array items :: stack) →
      r.Takes (cs ++ [']']) (complete (.array (items.reverse ++ vs)) stack)
  | _, _, .one h, _, _, _, hr => (takes_of_writes h hr).append takes_item_close
  | _, _, .cons h hrest, _, _, _, hr => by
    -- behind the comma the item is in the frame of the array
    have hitem := (takes_of_writes h hr).append takes_item_comma
    have hitems := hitem.append (takes_of_writesItems hrest (awaits_value _))
    simpa using hitems

/-- A text that writes a field takes the reader to where the field's value is complete. -/
theorem takes_of_writesField : ∀ {f : List Char × Json} {cs : List Char}, WritesField f cs →
    ∀ {r : Reader} {fields : List (List Char × Json)} {stack : List Frame},
      r.AwaitsName fields stack → r.Takes cs (complete f.2 (.field fields f.1 :: stack))
  | _, _, .field hws hname hws' h, _, _, _, hr => by
    have hnamed := ((takes_space hws).append (takes_string hname (hr _))).append (takes_space hws')
    exact hnamed.append (takes_colon.append (takes_of_writes h (awaits_value _)))

/-- A text that writes fields takes the reader to the end of their object. -/
theorem takes_of_writesFields : ∀ {fs : List (List Char × Json)} {cs : List Char},
    WritesFields fs cs → ∀ {r : Reader} {fields : List (List Char × Json)} {stack : List Frame},
      r.AwaitsName fields stack →
      r.Takes (cs ++ ['\x7d']) (complete (.object (fields.reverse ++ fs)) stack)
  | _, _, .one h, _, _, _, hr => (takes_of_writesField h hr).append takes_field_close
  | _, _, .cons h hrest, _, _, _, hr => by
    have hfield := (takes_of_writesField h hr).append takes_field_comma
    have hfields := hfield.append (takes_of_writesFields hrest (awaitsName_name _ _))
    simpa using hfields

end

end Reader

/-- A text of the grammar is read as the value that it writes. -/
theorem ofText?_of_writes {v : Json} {s : String} (h : Writes v s.toList) : ofText? s = some v := by
  -- a text of its own has no frame around its value and nothing behind it
  have htakes := Reader.takes_of_writes h (Reader.awaits_value []) []
  rw [List.append_nil] at htakes
  have hread : ofText? s = ((Reader.value []).read .between s.toList).bind Reader.finish := by
    unfold ofText? ofTokens? Reader.read
    cases Scan.tokens .between s.toList <;> rfl
  rw [hread, htakes]
  rfl

/-! ## The text of a string -/

theorem code?_of_isCode {digits : List Char} {n : Nat} (h : IsCode digits n) :
    ∃ a b c d, digits = [a, b, c, d] ∧ code? a b c d = some n := by
  obtain ⟨ha, hb, hc, hd⟩ := h
  refine ⟨_, _, _, _, rfl, ?_⟩
  simp only [code?, hexValue?_of_isHexDigit ha, hexValue?_of_isHexDigit hb,
    hexValue?_of_isHexDigit hc, hexValue?_of_isHexDigit hd]
  show some _ = some _
  congr 1
  omega

/-- The code of a character is not half of a surrogate pair. -/
theorem not_surrogate (c : Char) :
    isHighSurrogate c.toNat = false ∧ isLowSurrogate c.toNat = false := by
  have hvalid : c.toNat < 0xD800 ∨ (0xDFFF < c.toNat ∧ c.toNat < 0x110000) := c.valid
  simp only [isHighSurrogate, isLowSurrogate, Bool.and_eq_false_iff, decide_eq_false_iff_not]
  omega

/-- The two halves of a character beyond four digits stand for it. -/
theorem surrogatePair_halves {c : Char} (hc : 0x10000 ≤ c.toNat) :
    isHighSurrogate (0xD800 + (c.toNat - 0x10000) / 0x400) = true ∧
      isLowSurrogate (0xDC00 + (c.toNat - 0x10000) % 0x400) = true ∧
      surrogatePair (0xD800 + (c.toNat - 0x10000) / 0x400)
        (0xDC00 + (c.toNat - 0x10000) % 0x400) = c := by
  have hvalid : c.toNat < 0xD800 ∨ (0xDFFF < c.toNat ∧ c.toNat < 0x110000) := c.valid
  -- the halves hold the quotient and the remainder of what is above U+10000
  have hcode : 0x10000 + (0xD800 + (c.toNat - 0x10000) / 0x400 - 0xD800) * 0x400 +
      (0xDC00 + (c.toNat - 0x10000) % 0x400 - 0xDC00) = c.toNat := by omega
  refine ⟨?_, ?_, ?_⟩
  · simp only [isHighSurrogate, Bool.and_eq_true, decide_eq_true_eq]
    omega
  · simp only [isLowSurrogate, Bool.and_eq_true, decide_eq_true_eq]
    omega
  · rw [surrogatePair, hcode, Char.ofNat_toNat]

/-- What spells a text is read as that text. -/
theorem text?_of_spells {lexeme text : List Char} (h : Spells lexeme text) :
    text? lexeme = some text := by
  induction h with
  | nil => rfl
  | plain _ hback _ _ ih => simp [text?, hback, ih]
  | @letter e c lexeme text he _ ih =>
    -- no letter of an escape is the one that begins a code
    have hall : ∀ p ∈ letterEscapes, p.1 ≠ 'u' ∧ unescape p.1 = p.2 := by decide
    obtain ⟨hu, hc⟩ := hall _ he
    simp only at hu hc
    simp [text?, hu, hc, ih]
  | @code c digits lexeme text hcode _ ih =>
    obtain ⟨a, b, d, e, rfl, hvalue⟩ := code?_of_isCode hcode
    -- the code of a character is not one half of a pair
    obtain ⟨hhigh, hlow⟩ := not_surrogate c
    simp [text?, hvalue, hhigh, hlow, ih]
  | @pair c high low lexeme text hc hhigh hlow _ ih =>
    obtain ⟨a, b, d, e, rfl, hfirst⟩ := code?_of_isCode hhigh
    obtain ⟨f, g, h, i, rfl, hsecond⟩ := code?_of_isCode hlow
    obtain ⟨hisHigh, hisLow, hpair⟩ := surrogatePair_halves hc
    simp [text?, hfirst, hsecond, hisHigh, hisLow, hpair, ih]

end EntitySql.Json
