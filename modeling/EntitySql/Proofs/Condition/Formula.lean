import EntitySql.Proofs.Condition.Meaning

/-! # Boolean formulas in tokens

    The tokens of a condition group are to be read as SQL reads them: AND binds
    tighter than OR, both group to the left, and parentheses override this.
    `Formula.Spells` is the grammar that says so.

    `Formula.read` reads tokens from the first to the last. A `Level` is what it
    has read between the innermost open parenthesis and the operand that is due:
    the alternatives that are complete and the factors of the one that is not.
    Reading succeeds on exactly the texts of the grammar
    (`read_eq_some_iff`), so no text spells two formulas.
-/

namespace EntitySql

open Condition (Token)

/-! ## Formulas -/

/-- A boolean expression over atoms. -/
inductive Formula where
  | atom (a : Atom)
  | and (f g : Formula)
  | or (f g : Formula)
  deriving DecidableEq, Repr, Inhabited

namespace Formula

def eval (v : Valuation) : Formula → Bool
  | atom a => v a
  | and f g => f.eval v && g.eval v
  | or f g => f.eval v || g.eval v

/-! ## The grammar -/

/-- The three kinds of texts, from the loosest to the tightest. -/
inductive Kind where
  | disjunction
  | conjunction
  | operand

/-- The texts that spell a formula. -/
inductive Spells : Kind → List Token → Formula → Prop where
  | predicate (p : Predicate) : Spells .operand [.predicate p] (.atom (.predicate p))
  | raw (sql : String) : Spells .operand [.raw sql] (.atom (.raw sql))
  | enclosed {ts : List Token} {f : Formula} :
      Spells .disjunction ts f → Spells .operand (.opening :: ts ++ [.closing]) f
  | operand {ts : List Token} {f : Formula} : Spells .operand ts f → Spells .conjunction ts f
  | and {ts us : List Token} {f g : Formula} :
      Spells .conjunction ts f → Spells .operand us g →
        Spells .conjunction (ts ++ .connective .and :: us) (.and f g)
  | conjunction {ts : List Token} {f : Formula} :
      Spells .conjunction ts f → Spells .disjunction ts f
  | or {ts us : List Token} {f g : Formula} :
      Spells .disjunction ts f → Spells .conjunction us g →
        Spells .disjunction (ts ++ .connective .or :: us) (.or f g)

/-- A formula after the factors before it, if there are any. -/
def andAfter : Option Formula → Formula → Formula
  | none, f => f
  | some e, f => .and e f

/-- A formula after the alternatives before it, if there are any. -/
def orAfter : Option Formula → Formula → Formula
  | none, f => f
  | some e, f => .or e f

end Formula

/-! ## Levels -/

/-- What has been read between two parentheses, up to an operand that is still due. -/
structure Level where
  /-- The alternatives before the last OR -/
  alternatives : Option Formula
  /-- The factors since then -/
  factors : Option Formula
  deriving DecidableEq, Repr, Inhabited

namespace Level

def empty : Level := ⟨none, none⟩

/-- An operand and an AND have been read. -/
def and (l : Level) (f : Formula) : Level := { l with factors := some (.andAfter l.factors f) }

/-- The operand at the end has been read. -/
def close (l : Level) (f : Formula) : Formula :=
  .orAfter l.alternatives (.andAfter l.factors f)

/-- An operand and an OR have been read. -/
def or (l : Level) (f : Formula) : Level := ⟨some (l.close f), none⟩

/-- An operand and a connective have been read. -/
def join (l : Level) (f : Formula) : Connective → Level
  | .and => l.and f
  | .or => l.or f

/-- Whether one of the alternatives that are complete is true. -/
def settled (v : Valuation) (l : Level) : Bool := l.alternatives.any (Formula.eval v)

/-- Whether all factors so far are true. -/
def pending (v : Valuation) (l : Level) : Bool := l.factors.all (Formula.eval v)

@[simp] theorem settled_empty (v : Valuation) : empty.settled v = false := rfl

@[simp] theorem pending_empty (v : Valuation) : empty.pending v = true := rfl

theorem eval_close (v : Valuation) (l : Level) (f : Formula) :
    (l.close f).eval v = (l.settled v || (l.pending v && f.eval v)) := by
  obtain ⟨as, fs⟩ := l
  cases as <;> cases fs <;>
    simp [close, settled, pending, Formula.orAfter, Formula.andAfter, Formula.eval]

@[simp] theorem settled_and (v : Valuation) (l : Level) (f : Formula) :
    (l.and f).settled v = l.settled v := rfl

@[simp] theorem pending_and (v : Valuation) (l : Level) (f : Formula) :
    (l.and f).pending v = (l.pending v && f.eval v) := by
  obtain ⟨as, fs⟩ := l
  cases fs <;> simp [and, pending, Formula.andAfter, Formula.eval]

@[simp] theorem settled_or (v : Valuation) (l : Level) (f : Formula) :
    (l.or f).settled v = (l.settled v || (l.pending v && f.eval v)) := eval_close v l f

@[simp] theorem pending_or (v : Valuation) (l : Level) (f : Formula) :
    (l.or f).pending v = true := rfl

end Level

/-! ## Reading -/

/-- The state of reading. -/
structure Reader where
  /-- The levels outside of the open parentheses, innermost first -/
  outer : List Level
  level : Level
  /-- The operand that has been read, unless it is still due -/
  operand : Option Formula
  deriving DecidableEq, Repr, Inhabited

namespace Reader

def start : Reader := ⟨[], .empty, none⟩

/-- Reads one token, unless it cannot stand here. -/
def step : Reader → Token → Option Reader
  | ⟨outer, l, none⟩, .predicate p => some ⟨outer, l, some (.atom (.predicate p))⟩
  | ⟨outer, l, none⟩, .raw sql => some ⟨outer, l, some (.atom (.raw sql))⟩
  | ⟨outer, l, none⟩, .opening => some ⟨l :: outer, .empty, none⟩
  | ⟨outer, l, some f⟩, .connective c => some ⟨outer, l.join f c, none⟩
  | ⟨l' :: outer, l, some f⟩, .closing => some ⟨outer, l', some (l.close f)⟩
  | _, _ => none

/-- The formula that has been read, if the text may end here. -/
def finish : Reader → Option Formula
  | ⟨[], l, some f⟩ => some (l.close f)
  | _ => none

end Reader

/-- The formula that tokens spell, if they spell one. -/
def Formula.read (ts : List Token) : Option Formula :=
  (ts.foldlM Reader.step .start).bind Reader.finish

/-- Read where an operand is due, the tokens leave an operand and a level, whatever
    parentheses are open. -/
def Reads (ts : List Token) (l l' : Level) (f : Formula) : Prop :=
  ∀ outer, ts.foldlM Reader.step ⟨outer, l, none⟩ = some ⟨outer, l', some f⟩

namespace Reads

variable {ts us : List Token} {l l₁ l₂ : Level} {f g : Formula}

theorem predicate (p : Predicate) (l : Level) :
    Reads [.predicate p] l l (.atom (.predicate p)) := fun _ => rfl

theorem raw (sql : String) (l : Level) : Reads [.raw sql] l l (.atom (.raw sql)) := fun _ => rfl

theorem join {c : Connective} (h : Reads ts l l₁ f) (h' : Reads us (l₁.join f c) l₂ g) :
    Reads (ts ++ .connective c :: us) l l₂ g := by
  intro outer
  rw [List.foldlM_append, h outer]
  exact h' outer

theorem enclosed (h : Reads ts .empty l₁ f) (l : Level) :
    Reads (.opening :: ts ++ [.closing]) l l (l₁.close f) := by
  intro outer
  have hopen : (Token.opening :: ts).foldlM Reader.step ⟨outer, l, none⟩ =
      some ⟨l :: outer, l₁, some f⟩ := h (l :: outer)
  rw [List.foldlM_append, hopen]
  rfl

/-- What is read from the start is closed at the end. -/
theorem read_eq (h : Reads ts .empty l₁ f) : Formula.read ts = some (l₁.close f) := by
  rw [Formula.read, Reader.start, h []]
  rfl

end Reads

/-! ## Reading follows the grammar -/

namespace Formula

/-- What a text of some kind does to a level at which it may stand. A conjunction only stands
    where an alternative begins, and a disjunction where a parenthesis has been opened. -/
def ReadAs : Kind → List Token → Formula → Prop
  | .operand, ts, f => ∀ l, Reads ts l l f
  | .conjunction, ts, f => ∀ as, ∃ fs g, Reads ts ⟨as, none⟩ ⟨as, fs⟩ g ∧ andAfter fs g = f
  | .disjunction, ts, f => ∃ l g, Reads ts .empty l g ∧ l.close g = f

/-- A text of the grammar is read as what it spells. -/
theorem readAs_of_spells {k : Kind} {ts : List Token} {f : Formula} (h : Spells k ts f) :
    ReadAs k ts f := by
  induction h with
  | predicate p => exact Reads.predicate p
  | raw sql => exact Reads.raw sql
  | enclosed _ ih =>
    obtain ⟨l₁, g, hr, rfl⟩ := ih
    exact hr.enclosed
  | operand _ ih => exact fun as => ⟨none, _, ih ⟨as, none⟩, rfl⟩
  | and _ _ ih₁ ih₂ =>
    intro as
    -- the last operand of the left text is put to its factors when the AND is read
    obtain ⟨fs, g, hr, rfl⟩ := ih₁ as
    exact ⟨some (andAfter fs g), _, hr.join (c := .and) (ih₂ _), rfl⟩
  | conjunction _ ih =>
    obtain ⟨fs, g, hr, rfl⟩ := ih none
    exact ⟨⟨none, fs⟩, g, hr, rfl⟩
  | or _ _ ih₁ ih₂ =>
    obtain ⟨l₁, g, hr, rfl⟩ := ih₁
    -- the OR closes all that is before it, and the right text begins an alternative
    obtain ⟨fs, g', hr', rfl⟩ := ih₂ (some (l₁.close g))
    exact ⟨⟨some (l₁.close g), fs⟩, g', hr.join (c := .or) hr', rfl⟩

end Formula

namespace Level

/-- The tokens read before the operand that is due spell the level. -/
def SpelledBy (l : Level) (ts : List Token) : Prop :=
  ∃ as fs, ts = as ++ fs ∧
    (match l.alternatives with
      | none => as = []
      | some f => ∃ us, as = us ++ [.connective .or] ∧ Formula.Spells .disjunction us f) ∧
    (match l.factors with
      | none => fs = []
      | some f => ∃ us, fs = us ++ [.connective .and] ∧ Formula.Spells .conjunction us f)

theorem spelledBy_empty : empty.SpelledBy [] := ⟨[], [], rfl, rfl, rfl⟩

variable {l : Level} {ts us : List Token} {f : Formula}

/-- The factors with one more operand are a conjunction. -/
theorem SpelledBy.andAfter (h : l.SpelledBy ts) (hf : Formula.Spells .operand us f) :
    ∃ as ws, ts ++ us = as ++ ws ∧ SpelledBy ⟨l.alternatives, none⟩ as ∧
      Formula.Spells .conjunction ws (.andAfter l.factors f) := by
  obtain ⟨as, fs, rfl, has, hfs⟩ := h
  -- the operand belongs to the factors, and the alternatives before them stay as they are
  refine ⟨as, fs ++ us, by rw [List.append_assoc], ⟨as, [], by simp, has, rfl⟩, ?_⟩
  cases hl : l.factors with
  | none =>
    rw [hl] at hfs
    rw [hfs]
    exact hf.operand
  | some e =>
    rw [hl] at hfs
    obtain ⟨ws, rfl, hws⟩ := hfs
    rw [List.append_assoc]
    exact hws.and hf

/-- A level with its last operand is a disjunction. -/
theorem SpelledBy.close (h : l.SpelledBy ts) (hf : Formula.Spells .operand us f) :
    Formula.Spells .disjunction (ts ++ us) (l.close f) := by
  obtain ⟨as, ws, heq, ⟨as', fs, rfl, has, rfl⟩, hws⟩ := h.andAfter hf
  rw [heq, List.append_nil, Level.close]
  -- the conjunction that ends here is the only alternative, or it follows others
  cases hl : l.alternatives with
  | none =>
    simp only [hl] at has
    rw [has]
    exact hws.conjunction
  | some e =>
    simp only [hl] at has
    obtain ⟨bs, rfl, hbs⟩ := has
    rw [List.append_assoc]
    exact hbs.or hws

/-- A connective after the operand is spelled too. -/
theorem SpelledBy.join (h : l.SpelledBy ts) (hf : Formula.Spells .operand us f)
    (c : Connective) : (l.join f c).SpelledBy (ts ++ us ++ [.connective c]) := by
  cases c with
  | and =>
    obtain ⟨as, ws, heq, ⟨as', fs, rfl, has, rfl⟩, hws⟩ := h.andAfter hf
    exact ⟨as', ws ++ [.connective .and], by simp [heq], has, ws, rfl, hws⟩
  | or => exact ⟨_, [], (List.append_nil _).symm, ⟨_, rfl, h.close hf⟩, rfl⟩

end Level

namespace Reader

/-- The tokens before an operand that is due spell the open levels. -/
def Due : List Level → Level → List Token → Prop
  | [], l, ts => l.SpelledBy ts
  | l' :: outer, l, ts =>
    ∃ us ws, ts = us ++ .opening :: ws ∧ Due outer l' us ∧ l.SpelledBy ws

/-- The tokens that have been read spell the state. -/
def SpelledBy (r : Reader) (ts : List Token) : Prop :=
  match r.operand with
  | none => Due r.outer r.level ts
  | some f => ∃ us ws, ts = us ++ ws ∧ Due r.outer r.level us ∧ Formula.Spells .operand ws f

variable {outer : List Level} {l l' : Level} {us ws : List Token} {f : Formula}

theorem Due.join (h : Due outer l us) (hf : Formula.Spells .operand ws f) (c : Connective) :
    Due outer (l.join f c) (us ++ ws ++ [.connective c]) := by
  cases outer with
  | nil => exact Level.SpelledBy.join h hf c
  | cons l' outer =>
    obtain ⟨before, inside, rfl, hbefore, hinside⟩ := h
    exact ⟨before, inside ++ ws ++ [.connective c], by simp, hbefore, hinside.join hf c⟩

theorem Due.close (h : Due (l' :: outer) l us) (hf : Formula.Spells .operand ws f) :
    SpelledBy ⟨outer, l', some (l.close f)⟩ (us ++ ws ++ [.closing]) := by
  obtain ⟨before, inside, rfl, hbefore, hinside⟩ := h
  exact ⟨before, .opening :: (inside ++ ws) ++ [.closing], by simp, hbefore,
    (hinside.close hf).enclosed⟩

/-- Reading a token keeps the state spelled by what has been read. -/
theorem SpelledBy.step {r r' : Reader} {ts : List Token} {t : Token} (h : r.SpelledBy ts)
    (hstep : r.step t = some r') : r'.SpelledBy (ts ++ [t]) := by
  obtain ⟨outer, l, operand⟩ := r
  cases operand with
  | none =>
    -- an operand is due: an atom or an opening parenthesis
    have hdue : Due outer l ts := h
    cases t with
    | predicate p =>
      obtain rfl := Option.some.inj hstep
      exact ⟨ts, _, rfl, hdue, .predicate p⟩
    | raw sql =>
      obtain rfl := Option.some.inj hstep
      exact ⟨ts, _, rfl, hdue, .raw sql⟩
    | opening =>
      obtain rfl := Option.some.inj hstep
      exact ⟨ts, [], rfl, hdue, Level.spelledBy_empty⟩
    | connective c => exact absurd hstep (by simp [Reader.step])
    | closing => exact absurd hstep (by simp [Reader.step])
  | some f =>
    -- an operand has been read: a connective or a closing parenthesis
    obtain ⟨us, ws, rfl, hdue, hf⟩ := h
    cases t with
    | connective c =>
      obtain rfl := Option.some.inj hstep
      exact hdue.join hf c
    | closing =>
      cases outer with
      | nil => exact absurd hstep (by simp [Reader.step])
      | cons l' outer =>
        obtain rfl := Option.some.inj hstep
        exact hdue.close hf
    | predicate p => exact absurd hstep (by simp [Reader.step])
    | raw sql => exact absurd hstep (by simp [Reader.step])
    | opening => exact absurd hstep (by simp [Reader.step])

/-- So does reading any number of tokens. -/
theorem SpelledBy.steps {r r' : Reader} {ts us : List Token} (h : r.SpelledBy ts)
    (hsteps : us.foldlM Reader.step r = some r') : r'.SpelledBy (ts ++ us) := by
  induction us generalizing r ts with
  | nil =>
    obtain rfl := Option.some.inj hsteps
    rwa [List.append_nil]
  | cons u us ih =>
    rw [List.foldlM_cons] at hsteps
    obtain ⟨r₁, hstep, hrest⟩ := Option.bind_eq_some_iff.1 hsteps
    rw [← List.singleton_append, ← List.append_assoc]
    exact ih (h.step hstep) hrest

end Reader

namespace Formula

/-- What is read is spelled by the text. -/
theorem spells_of_read {ts : List Token} {f : Formula} (h : read ts = some f) :
    Spells .disjunction ts f := by
  obtain ⟨r, hsteps, hfinish⟩ := Option.bind_eq_some_iff.1 h
  have hstart : Reader.start.SpelledBy [] := Level.spelledBy_empty
  have hr : r.SpelledBy ts := hstart.steps hsteps
  -- a text only ends outside of parentheses and after an operand
  match r, hr, hfinish with
  | ⟨[], l, some g⟩, ⟨us, ws, heq, hus, hws⟩, hfinish =>
    obtain rfl := Option.some.inj hfinish
    rw [heq]
    exact Level.SpelledBy.close hus hws

/-- Reading succeeds on the texts of the grammar, with the formula that they spell. -/
theorem read_eq_some_iff {ts : List Token} {f : Formula} :
    read ts = some f ↔ Spells .disjunction ts f := by
  refine ⟨spells_of_read, fun h => ?_⟩
  obtain ⟨l, g, hr, rfl⟩ := readAs_of_spells h
  exact hr.read_eq

end Formula

end EntitySql
