import EntitySql.Proofs.Rendering

/-! # Building statements

    A statement can be built by a program that pushes texts, names and
    parameters behind what is there already. An error ends the program, and what
    has been pushed before it stays. A *fragment* is built behind the bindings of
    a caller: these are taken from the caller and given back in the end, with
    those of the fragment behind them.

    A program *builds* a rendering if it ends as the rendering does and appends
    what the rendering writes, wherever it starts. What it appends and how it
    ends then does not depend on where it starts (`Builds.frame`). Programs that
    follow each other build renderings that follow each other
    (`Builds.append`), so it suffices to look at the steps.
-/

namespace EntitySql

/-! ## Programs -/

/-- Programs over the statement that is being built. An error leaves the statement. -/
abbrev Building := ExceptT SqlError (StateM Statement)

namespace Building

/-- How a program ends and the statement that it leaves, when it starts from the given one. -/
def runOn (b : Building Unit) (s : Statement) : Except SqlError Unit × Statement := b.run.run s

def push (t : String) : Building Unit := modify fun s => { s with sql := s.sql ++ t }

def pushAll : List String → Building Unit
  | [] => pure ()
  | t :: ts => do
    push t
    pushAll ts

/-- Pushes a name as the dialect quotes it. -/
def pushName (d : Dialect) (n : String) : Building Unit := push (d.quoteName n)

/-- Adds parameters for placeholders that have been pushed as a part of a text. -/
def extendParams (ps : List Param) : Building Unit :=
  modify fun s => { s with params := s.params ++ ps }

/-- Pushes a placeholder with its parameter. -/
def pushParam (p : Param) : Building Unit := do
  extendParams [p]
  push "?"

def pushPiece (d : Dialect) : Piece → Building Unit
  | .text t => push t
  | .name n => pushName d n
  | .param p => pushParam p
  | .fragment t ps => do
    push t
    extendParams ps

def pushPieces (d : Dialect) : List Piece → Building Unit
  | [] => pure ()
  | p :: ps => do
    pushPiece d p
    pushPieces d ps

/-- Offers an expression to the dialect, and says whether it has pushed something for it. -/
def offer (d : Dialect) (e : Expression) : Building Bool :=
  match d.render? e with
  | some ps => do
    pushPieces d ps
    return true
  | none => return false

/-- Pushes something for each element, with a text between each two. The first error ends it. -/
def pushIter {α : Type} (sep : String) (pushElement : α → Building Unit) : List α → Building Unit
  | [] => pure ()
  | a :: as => do
    pushElement a
    -- no text comes after the last element, and none after one that fails
    unless as.isEmpty do push sep
    pushIter sep pushElement as

theorem pushIter_map {α β : Type} (sep : String) (pushElement : β → Building Unit) (f : α → β)
    (as : List α) :
    pushIter sep pushElement (as.map f) = pushIter sep (fun a => pushElement (f a)) as := by
  induction as with
  | nil => rfl
  | cons a as ih =>
    rw [List.map_cons, pushIter, pushIter, ih, List.isEmpty_map]

/-- What has been computed already, unless that is an error. -/
def ofOutcome {α : Type} (x : Except SqlError α) : Building α := ExceptT.mk (pure x)

/-- A line after the first one, unless it is absent. -/
def pushLine (absent : Bool) (line : Building Unit) : Building Unit :=
  if absent then pure ()
  else do
    push "\n"
    line

/-- The statement that a program builds from nothing, or the error that ends it. -/
def statement (b : Building Unit) : Except SqlError Statement :=
  (b.runOn .empty).1.map fun _ => (b.runOn .empty).2

/-- The text of a program that starts behind the bindings of a caller. The caller has no bindings
    while the program runs, and gets all of them in the end, also if that is an error. -/
def fragment (b : Building Unit) : StateM (List Param) (Except SqlError String) := do
  let bindings ← getModify fun _ => []
  let (outcome, s) := b.runOn ⟨"", bindings⟩
  set s.params
  return outcome.map fun _ => s.sql

theorem run_fragment (b : Building Unit) (bindings : List Param) :
    b.fragment.run bindings =
      ((b.runOn ⟨"", bindings⟩).1.map fun _ => (b.runOn ⟨"", bindings⟩).2.sql,
        (b.runOn ⟨"", bindings⟩).2.params) := rfl

end Building

/-- How a rendering ends. -/
def Rendering.outcome (r : Rendering) : Except SqlError Unit :=
  match r.failure with
  | none => .ok ()
  | some e => .error e

/-- Wherever the program starts, it ends as the rendering does, with what the rendering writes
    appended. -/
def Builds (d : Dialect) (b : Building Unit) (r : Rendering) : Prop :=
  ∀ s, b.runOn s = (r.outcome, r.writeTo d s)

namespace Builds

variable {d : Dialect}

/-! ## Single steps -/

theorem empty : Builds d (pure ()) .empty := fun _ => rfl

theorem text (t : String) : Builds d (.push t) (.text t) := fun _ => rfl

theorem name (n : String) : Builds d (.pushName d n) (.name n) := fun _ => rfl

theorem param (p : Param) : Builds d (.pushParam p) (.param p) := fun _ => rfl

theorem fail (e : SqlError) : Builds d (throw e) (.fail e) := fun _ => rfl

/-- A program ends at once if what it goes on with is an error. -/
theorem ofError {α : Type} (e : SqlError) (next : α → Building Unit) :
    Builds d (.ofOutcome (.error e) >>= next) (.fail e) := fun _ => rfl

/-- Otherwise the value is at hand. -/
theorem ofValue {α : Type} {a : α} {next : α → Building Unit} {r : Rendering}
    (h : Builds d (next a) r) : Builds d (.ofOutcome (.ok a) >>= next) r := h

/-! ## Steps one after the other -/

section sequence

variable {b c : Building Unit} {r r' : Rendering}

/-- The second program starts where the first one ends, unless that has failed. -/
theorem append (hb : Builds d b r) (hc : Builds d c r') :
    Builds d (b >>= fun _ => c) (r ++ r') := by
  intro s
  have hrun : Building.runOn (b >>= fun _ => c) s =
      match b.runOn s with
      | (.ok _, t) => c.runOn t
      | (.error e, t) => (.error e, t) := by
    unfold Building.runOn
    rw [ExceptT.run_bind, StateT.run_bind]
    cases b.run.run s with
    | mk outcome t => cases outcome <;> rfl
  rw [hrun, hb s]
  unfold Rendering.outcome
  cases hr : r.failure with
  -- after an error nothing of the second program is run, and nothing of the second rendering
  -- is written
  | some e =>
    rw [Rendering.append_of_error hr, hr]
  | none =>
    dsimp only
    rw [hc, Rendering.failure_append_of_ok hr, Rendering.writeTo_append hr,
      ← Rendering.writeTo_eq_append]
    rfl

theorem ite {p : Prop} [Decidable p] (hb : Builds d b r) (hc : Builds d c r') :
    Builds d (if p then b else c) (if p then r else r') := by
  split
  · exact hb
  · exact hc

end sequence

/-- Texts one after the other are one text. -/
theorem texts {ts : List String} {t : String} (h : String.join ts = t) :
    Builds d (.pushAll ts) (.text t) := by
  subst h
  induction ts with
  | nil =>
    intro s
    have hnothing : (Rendering.text (String.join [])).writeTo d s = s :=
      Statement.ext String.append_empty rfl
    rw [hnothing]
    rfl
  | cons t ts ih =>
    intro s
    -- the elements of the two renderings differ, but not what is written of them
    have hjoined : (Rendering.text (String.join (t :: ts))).writeTo d s =
        (Rendering.text t ++ Rendering.text (String.join ts)).writeTo d s := by
      refine Statement.ext ?_ rfl
      show s.sql ++ String.join (t :: ts) = s.sql ++ t ++ String.join ts
      rw [String.join_cons, String.append_assoc]
    rw [hjoined]
    exact (text t).append ih s

theorem iter {α : Type} {sep : String} {f : α → Building Unit} {r : α → Rendering} {as : List α}
    (h : ∀ a ∈ as, Builds d (f a) (r a)) :
    Builds d (.pushIter sep f as) (.sepBy sep (as.map r)) := by
  induction as with
  | nil => exact empty
  | cons a as ih =>
    obtain ⟨ha, has⟩ := List.forall_mem_cons.1 h
    -- program and rendering have the text after the element if another one follows
    cases as with
    | nil => exact ha.append (empty.append empty)
    | cons a' as => exact ha.append ((text sep).append (ih has))

/-! ## Lines -/

section lines

variable {b c : Building Unit} {r : Rendering} {rs rs' : List Rendering}

/-- The program builds lines that come after another one. -/
def Lines (d : Dialect) (b : Building Unit) (rs : List Rendering) : Prop :=
  Builds d b (.concat (rs.map (Rendering.text "\n" ++ ·)))

theorem line (absent : Bool) (h : Builds d b r) :
    Lines d (.pushLine absent b) (if absent then [] else [r]) := by
  cases absent with
  | true => exact empty
  | false =>
    show Builds d (Building.push "\n" >>= fun _ => b) (Rendering.text "\n" ++ r ++ .empty)
    rw [Rendering.append_empty]
    exact (text "\n").append h

theorem Lines.append (hb : Lines d b rs) (hc : Lines d c rs') :
    Lines d (b >>= fun _ => c) (rs ++ rs') := by
  unfold Lines
  rw [List.map_append, Rendering.concat_append]
  exact Builds.append hb hc

/-- The first line and those after it. -/
theorem lines (hb : Builds d b r) (hc : Lines d c rs) :
    Builds d (b >>= fun _ => c) (.sepBy "\n" (r :: rs)) := by
  rw [Rendering.sepBy_cons]
  exact hb.append hc

end lines

/-! ## What a program that builds a rendering does -/

section frame

variable {b : Building Unit} {r : Rendering} (h : Builds d b r)
include h

/-- How it ends and what it appends does not depend on where it starts. -/
theorem frame (s : Statement) :
    b.runOn s = ((b.runOn .empty).1, s ++ (b.runOn .empty).2) := by
  rw [h s, h .empty, r.writeTo_eq_append]

/-- So the statement is that of the rendering. -/
theorem statement_eq : b.statement = r.statement d := by
  unfold Building.statement Rendering.statement
  rw [h .empty]
  unfold Rendering.outcome
  cases r.failure <;> rfl

/-- And so is a fragment. -/
theorem run_fragment (bindings : List Param) :
    b.fragment.run bindings = r.fragment d bindings := by
  rw [Building.run_fragment, h]
  unfold Rendering.outcome Rendering.fragment
  cases r.failure <;> rfl

/-- The caller is left with the bindings as they were, followed by those of the program alone. -/
theorem run_fragment_frame (bindings : List Param) :
    b.fragment.run bindings = ((b.runOn .empty).1.map fun _ => (b.runOn .empty).2.sql,
      bindings ++ (b.runOn .empty).2.params) := by
  have htext : (⟨"", bindings⟩ ++ (b.runOn .empty).2 : Statement).sql = (b.runOn .empty).2.sql :=
    String.empty_append
  rw [Building.run_fragment, h.frame, htext, Statement.params_append]

end frame

end Builds

end EntitySql
