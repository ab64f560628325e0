import EntitySql.Proofs.Condition.Formula

/-! # Shapes of written conditions

    The text of a member of a group may hold an OR outside of parentheses. What
    stands beside the text is then read as a part of its first or last
    alternative only. A `Shape` keeps what matters of a text for this: its truth
    value if it is a single alternative, and else those of the first and the
    last alternative and of the ones in between.

    Shapes of texts are joined as the texts are, so a condition has a shape that
    follows from its tree (`shapeIn`), and the reader of formulas finds a text of
    that shape (`hasShape_tokensIn`). Whether the shape has one alternative or
    more depends on the tree and not on the valuation (`isMany_shapeIn`).
-/

namespace EntitySql

open Condition (Token)

/-- The truth values of the alternatives of a text. -/
inductive Shape where
  /-- No OR stands outside of parentheses -/
  | one (b : Bool)
  /-- The alternatives between the first and the last are taken together -/
  | many (first middle last : Bool)
  deriving DecidableEq, Repr, Inhabited

namespace Shape

/-- The truth value of the text by itself. -/
def value : Shape → Bool
  | one b => b
  | many first middle last => first || middle || last

def first : Shape → Bool
  | one b => b
  | many first _ _ => first

def last : Shape → Bool
  | one b => b
  | many _ _ last => last

/-- Whether there is more than one alternative. -/
def isMany : Shape → Bool
  | one _ => false
  | many _ _ _ => true

/-- Two texts with an AND between them. -/
def and : Shape → Shape → Shape
  | one a, one b => one (a && b)
  | one a, many f m l => many (a && f) m l
  | many f m l, one b => many f m (l && b)
  | many f m l, many f' m' l' => many f (m || (l && f') || m') l'

def or : Shape → Shape → Shape
  | one a, one b => many a false b
  | one a, many f m l => many a (f || m) l
  | many f m l, one b => many f (m || l) b
  | many f m l, many f' m' l' => many f (m || l || f' || m') l'

def join : Connective → Shape → Shape → Shape
  | .and => and
  | .or => or

/-- Texts with a connective between each two of them. -/
def joinAll (c : Connective) : List Shape → Shape
  | [] => one true
  | [s] => s
  | s :: t :: rest => join c s (joinAll c (t :: rest))

/-! ## Two texts -/

variable (s t : Shape)

@[simp] theorem value_one (b : Bool) : (one b).value = b := rfl

@[simp] theorem isMany_one (b : Bool) : (one b).isMany = false := rfl

theorem value_or : (s.or t).value = (s.value || t.value) := by
  cases s <;> cases t <;> grind [or, value]

/-- Without an OR in either text the AND is between their values. -/
theorem value_and (hs : s.isMany = false) (ht : t.isMany = false) :
    (s.and t).value = (s.value && t.value) := by
  cases s <;> cases t <;> simp_all [and, value, isMany]

theorem value_and_of_value (hs : s.value = true) (ht : t.value = true) :
    (s.and t).value = true := by
  cases s <;> cases t <;> grind [and, value]

theorem isMany_and : (s.and t).isMany = (s.isMany || t.isMany) := by
  cases s <;> cases t <;> rfl

theorem isMany_or : (s.or t).isMany = true := by
  cases s <;> cases t <;> rfl

/-- An OR in the left text keeps the right one out of the first alternative. -/
theorem first_and : (s.and t).first = (s.first && (s.isMany || t.first)) := by
  cases s <;> cases t <;> simp [and, first, isMany]

/-- An OR in the right text keeps the left one out of the last alternative. -/
theorem last_and : (s.and t).last = ((s.last || t.isMany) && t.last) := by
  cases s <;> cases t <;> simp [and, last, isMany]

theorem first_or : (s.or t).first = s.first := by
  cases s <;> cases t <;> rfl

theorem last_or : (s.or t).last = t.last := by
  cases s <;> cases t <;> rfl

variable {s t}

theorem value_of_first (h : s.first = true) : s.value = true := by
  cases s <;> simp_all [first, value]

theorem value_of_last (h : s.last = true) : s.value = true := by
  cases s <;> simp_all [last, value]

/-! ## Any number of texts -/

variable {c : Connective} {ss ts : List Shape}

@[simp] theorem joinAll_single (c : Connective) (s : Shape) : joinAll c [s] = s := rfl

theorem joinAll_cons (c : Connective) (s : Shape) (h : ss ≠ []) :
    joinAll c (s :: ss) = join c s (joinAll c ss) := by
  cases ss with
  | nil => exact absurd rfl h
  | cons t rest => rfl

theorem value_joinAll_or (h : ss ≠ []) : (joinAll .or ss).value = ss.any value := by
  induction ss using joinAll.induct with
  | case1 => exact absurd rfl h
  | case2 s => simp
  | case3 s t rest ih =>
    rw [joinAll, join, value_or, ih (by simp)]
    rfl

theorem isMany_joinAll_or (h : 1 < ss.length) : (joinAll .or ss).isMany = true := by
  match ss, h with
  | s :: t :: rest, _ => rw [joinAll, join, isMany_or]

theorem isMany_joinAll_and : (joinAll .and ss).isMany = ss.any isMany := by
  induction ss using joinAll.induct with
  | case1 => rfl
  | case2 s => simp
  | case3 s t rest ih =>
    rw [joinAll, join, isMany_and, ih]
    rfl

/-- Texts without an OR are joined by AND as their values are. -/
theorem value_joinAll_and (h : ∀ s ∈ ss, s.isMany = false) :
    (joinAll .and ss).value = ss.all value := by
  induction ss using joinAll.induct with
  | case1 => rfl
  | case2 s => simp
  | case3 s t rest ih =>
    obtain ⟨hs, hrest⟩ := List.forall_mem_cons.1 h
    -- of texts with one alternative each, an AND makes one alternative
    have hmany : (joinAll .and (t :: rest)).isMany = false := by
      rw [isMany_joinAll_and, List.any_eq_false]
      exact fun u hu => by simp [hrest u hu]
    rw [joinAll, join, value_and _ _ hs hmany, ih hrest]
    rfl

/-- Whatever ORs there are, true texts joined by AND are true. -/
theorem value_joinAll_and_of_forall (h : ∀ s ∈ ss, s.value = true) :
    (joinAll .and ss).value = true := by
  induction ss using joinAll.induct with
  | case1 => rfl
  | case2 s => exact h s List.mem_cons_self
  | case3 s t rest ih =>
    obtain ⟨hs, hrest⟩ := List.forall_mem_cons.1 h
    rw [joinAll, join]
    exact value_and_of_value _ _ hs (ih hrest)

theorem first_joinAll (h : ∀ s ∈ ss, s.first = true) : (joinAll c ss).first = true := by
  induction ss using joinAll.induct with
  | case1 => rfl
  | case2 s => exact h s List.mem_cons_self
  | case3 s t rest ih =>
    obtain ⟨hs, hrest⟩ := List.forall_mem_cons.1 h
    cases c with
    | and => rw [joinAll, join, first_and, hs, ih hrest]; simp
    | or => rw [joinAll, join, first_or, hs]

theorem last_joinAll (h : ∀ s ∈ ss, s.last = true) : (joinAll c ss).last = true := by
  induction ss using joinAll.induct with
  | case1 => rfl
  | case2 s => exact h s List.mem_cons_self
  | case3 s t rest ih =>
    obtain ⟨hs, hrest⟩ := List.forall_mem_cons.1 h
    cases c with
    | and => rw [joinAll, join, last_and, hs, ih hrest]; simp
    | or => rw [joinAll, join, last_or, ih hrest]

/-- The texts after one that holds an OR are kept out of the first alternative. -/
theorem first_joinAll_append (hs : s.isMany = true) (hfirst : ∀ t ∈ ss ++ [s], t.first = true) :
    (joinAll .and (ss ++ s :: ts)).first = true := by
  induction ss with
  | nil =>
    -- the text with the OR is the first one, and what follows it is in its last alternative
    have hs' := hfirst s (by simp)
    cases ts with
    | nil => exact hs'
    | cons t rest => rw [List.nil_append, joinAll, join, first_and, hs, hs']; rfl
  | cons u us ih =>
    have hu := hfirst u (by simp)
    have hrest := ih fun t ht => hfirst t (List.mem_cons_of_mem _ ht)
    rw [List.cons_append, joinAll_cons _ _ (by simp), join, first_and, hu, hrest]
    simp

/-- The texts before one that holds an OR are kept out of the last alternative. -/
theorem last_joinAll_append (hs : s.isMany = true) (hlast : ∀ t ∈ s :: ts, t.last = true) :
    (joinAll .and (ss ++ s :: ts)).last = true := by
  have htail : (joinAll .and (s :: ts)).last = true := last_joinAll hlast
  have hmany : (joinAll .and (s :: ts)).isMany = true := by
    rw [isMany_joinAll_and, List.any_cons, hs, Bool.true_or]
  -- what is before a text leaves its last alternative alone only if it holds an OR, so that
  -- this has to be carried along
  suffices h : ∀ us : List Shape, (joinAll .and (us ++ s :: ts)).last = true ∧
      (joinAll .and (us ++ s :: ts)).isMany = true from (h ss).1
  intro us
  induction us with
  | nil => exact ⟨htail, hmany⟩
  | cons u us ih =>
    rw [List.cons_append, joinAll_cons _ _ (by simp), join, last_and, isMany_and, ih.1, ih.2]
    simp

/-! ## Shapes and reading -/

/-- What reading a text of the shape does to the level at which it stands. -/
def Fits (v : Valuation) (l l' : Level) (f : Formula) : Shape → Prop
  | one b => l'.settled v = l.settled v ∧ (l'.pending v && f.eval v) = (l.pending v && b)
  | many first middle last =>
    l'.settled v = (l.settled v || (l.pending v && first) || middle) ∧
      (l'.pending v && f.eval v) = last

variable {v : Valuation} {l l₁ l₂ : Level} {f g : Formula} {s t : Shape}

/-- The text by itself has the value of its shape. -/
theorem Fits.eval_close (h : s.Fits v l l₁ f) (hl : l.pending v = true) :
    (l₁.close f).eval v = (l.settled v || s.value) := by
  rw [Level.eval_close]
  cases s <;> obtain ⟨h₁, h₂⟩ := h <;> rw [h₁, h₂, hl] <;> simp [value, Bool.or_assoc]

theorem Fits.enclosed (h : s.Fits v .empty l₁ f) (l : Level) :
    (one s.value).Fits v l l (l₁.close f) := by
  refine ⟨rfl, ?_⟩
  rw [h.eval_close rfl]
  simp

theorem Fits.join (c : Connective) (h : s.Fits v l l₁ f)
    (h' : t.Fits v (l₁.join f c) l₂ g) : (join c s t).Fits v l l₂ g := by
  cases c with
  | and =>
    cases s <;> cases t <;> simp_all [Shape.join, and, Fits, Level.join, Bool.and_assoc,
      Bool.or_assoc]
  | or =>
    cases s <;> cases t <;> simp_all [Shape.join, or, Fits, Level.join, Bool.or_assoc]

end Shape

/-- The tokens are read at any level, and they fit the shape under any valuation. -/
def HasShape (ts : List Token) (s : Valuation → Shape) : Prop :=
  ∀ l, ∃ l' f, Reads ts l l' f ∧ ∀ v, (s v).Fits v l l' f

namespace HasShape

theorem operand {ts : List Token} {f : Formula} (h : ∀ l, Reads ts l l f) :
    HasShape ts fun v => .one (f.eval v) := fun l => ⟨l, f, h l, fun _ => ⟨rfl, rfl⟩⟩

theorem join {ts us : List Token} {s t : Valuation → Shape} (c : Connective)
    (h : HasShape ts s) (h' : HasShape us t) :
    HasShape (ts ++ .connective c :: us) fun v => .join c (s v) (t v) := by
  intro l
  obtain ⟨l₁, f, hr, hf⟩ := h l
  obtain ⟨l₂, g, hr', hf'⟩ := h' (l₁.join f c)
  exact ⟨l₂, g, hr.join hr', fun v => (hf v).join c (hf' v)⟩

theorem enclosed {ts : List Token} {s : Valuation → Shape} (h : HasShape ts s) :
    HasShape (.opening :: ts ++ [.closing]) fun v => .one (s v).value := by
  intro l
  obtain ⟨l₁, f, hr, hf⟩ := h .empty
  exact ⟨l, _, hr.enclosed l, fun v => (hf v).enclosed l⟩

/-- A text that has a shape spells one formula, whose value is that of the shape. -/
theorem read {ts : List Token} {s : Valuation → Shape} (h : HasShape ts s) :
    ∃ f, Formula.read ts = some f ∧ ∀ v, f.eval v = (s v).value := by
  obtain ⟨l, f, hr, hf⟩ := h .empty
  exact ⟨l.close f, hr.read_eq, fun v => (hf v).eval_close rfl⟩

end HasShape

/-! ## Shapes of conditions -/

namespace Condition

mutual

/-- The shape of a condition as a member of a group with the given connective. -/
def shapeIn (v : Valuation) (outer : Connective) : Condition → Shape
  | predicate p => .one (v (.predicate p))
  | raw sql => .one (v (.raw sql))
  | group c members =>
    let parts := memberShapes v c members
    if c ≠ outer ∧ 1 < parts.length then .one (Shape.joinAll c parts).value
    else Shape.joinAll c parts

def memberShapes (v : Valuation) (c : Connective) : List Condition → List Shape
  | [] => []
  | m :: ms => if m.isEmpty then memberShapes v c ms else m.shapeIn v c :: memberShapes v c ms

end

theorem memberShapes_eq_map (v : Valuation) (c : Connective) (ms : List Condition) :
    memberShapes v c ms = (written ms).map (shapeIn v c) := by
  induction ms with
  | nil => rfl
  | cons m ms ih => cases h : m.isEmpty <;> simp [memberShapes, written_cons, h, ih]

theorem shapeIn_group (v : Valuation) (outer c : Connective) (ms : List Condition) :
    (group c ms).shapeIn v outer =
      if c ≠ outer ∧ 1 < (written ms).length
      then .one (Shape.joinAll c ((written ms).map (shapeIn v c))).value
      else Shape.joinAll c ((written ms).map (shapeIn v c)) := by
  simp only [shapeIn, memberShapes_eq_map, List.length_map]

/-- Parentheses do not change the value of a group. -/
theorem value_shapeIn_group (v : Valuation) (outer c : Connective) (ms : List Condition) :
    ((group c ms).shapeIn v outer).value =
      (Shape.joinAll c ((written ms).map (shapeIn v c))).value := by
  rw [shapeIn_group]
  split <;> rfl

/-- Texts with a connective between each two of them have the shape of their shapes joined. -/
theorem hasShape_intercalate (c : Connective) {ms : List Condition} (hne : ms ≠ [])
    (h : ∀ m ∈ ms, HasShape (m.tokensIn c) fun v => m.shapeIn v c) :
    HasShape ([Token.connective c].intercalate (ms.map (tokensIn c)))
      fun v => Shape.joinAll c (ms.map (shapeIn v c)) := by
  induction ms with
  | nil => exact absurd rfl hne
  | cons m ms ih =>
    obtain ⟨hm, hms⟩ := List.forall_mem_cons.1 h
    -- a single member has no connective, and after several of them the last one is joined to the
    -- rest
    cases ms with
    | nil => simpa using hm
    | cons m' ms =>
      have hjoin := hm.join c (ih (by simp) hms)
      simpa [List.intercalate_cons_cons, Shape.joinAll] using hjoin

/-- The text of a condition has the shape that follows from the tree. -/
theorem hasShape_tokensIn {c : Condition} (hne : c.isEmpty = false) (outer : Connective) :
    HasShape (c.tokensIn outer) fun v => c.shapeIn v outer := by
  induction c, hne using inductWritten generalizing outer with
  | predicate p => exact HasShape.operand (Reads.predicate p)
  | raw sql => exact HasShape.operand (Reads.raw sql)
  | group c ms hne ih =>
    have hinner := hasShape_intercalate c (written_ne_nil hne) fun m hm => ih m hm c
    -- text and shape decide on the parentheses in the same way
    simp only [tokensIn_group, shapeIn_group]
    split
    · exact hinner.enclosed
    · exact hinner

/-- The shape of a condition depends on its atoms alone. -/
theorem shapeIn_congr {v w : Valuation} {c : Condition} (hne : c.isEmpty = false)
    (outer : Connective) (h : ∀ a ∈ c.atoms, v a = w a) :
    c.shapeIn v outer = c.shapeIn w outer := by
  induction c, hne using inductWritten generalizing outer with
  | predicate p => exact congrArg Shape.one (h _ (by simp [atoms]))
  | raw sql hne => exact congrArg Shape.one (h _ (by simp [atoms, hne]))
  | group c ms hne ih =>
    have hmap : (written ms).map (shapeIn v c) = (written ms).map (shapeIn w c) :=
      List.map_congr_left fun m hm => ih m hm c fun a ha => h a (mem_atoms_group hm ha)
    rw [shapeIn_group, shapeIn_group, hmap]

/-- If all atoms of a condition are true, so are its first and its last alternative. -/
theorem shapeIn_of_forall {v : Valuation} {c : Condition} (hne : c.isEmpty = false)
    (outer : Connective) (h : ∀ a ∈ c.atoms, v a = true) :
    (c.shapeIn v outer).first = true ∧ (c.shapeIn v outer).last = true := by
  induction c, hne using inductWritten generalizing outer with
  | predicate p => exact ⟨h _ (by simp [atoms]), h _ (by simp [atoms])⟩
  | raw sql hne => exact ⟨h _ (by simp [atoms, hne]), h _ (by simp [atoms, hne])⟩
  | group c ms hne ih =>
    have hmem : ∀ m ∈ written ms, (m.shapeIn v c).first = true ∧ (m.shapeIn v c).last = true :=
      fun m hm => ih m hm c fun a ha => h a (mem_atoms_group hm ha)
    have hfirst : (Shape.joinAll c ((written ms).map (shapeIn v c))).first = true :=
      Shape.first_joinAll (List.forall_mem_map.2 fun m hm => (hmem m hm).1)
    have hlast : (Shape.joinAll c ((written ms).map (shapeIn v c))).last = true :=
      Shape.last_joinAll (List.forall_mem_map.2 fun m hm => (hmem m hm).2)
    rw [shapeIn_group]
    -- in parentheses there is a single alternative, and its value is that of the text
    split
    · exact ⟨Shape.value_of_first hfirst, Shape.value_of_first hfirst⟩
    · exact ⟨hfirst, hlast⟩

end Condition

end EntitySql
