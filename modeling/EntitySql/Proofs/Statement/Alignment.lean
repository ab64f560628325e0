import EntitySql.Proofs.Rendering
import EntitySql.Proofs.Text.Placeholder

/-! # Placeholders and their parameters

    A statement is *aligned* if its text is clean and holds one placeholder for
    each parameter. Aligned statements can be put one after the other: the
    result is aligned, and showing it with its parameters in place is showing
    its parts so.

    A rendering whose pieces are aligned therefore writes an aligned statement,
    and with its parameters in place that statement reads as if each piece had
    been written with its own parameters in place from the start
    (`interpolated_writeTo`).
-/

namespace EntitySql

/-! ## Statements -/

namespace Statement

/-- The text is clean and has one placeholder for each parameter. -/
def Aligned (s : Statement) : Prop :=
  Text.Clean s.sql ∧ Text.placeholders s.sql = s.params.length

instance (s : Statement) : Decidable s.Aligned := inferInstanceAs (Decidable (_ ∧ _))

theorem aligned_empty : empty.Aligned := ⟨rfl, rfl⟩

theorem Aligned.append {s t : Statement} (hs : s.Aligned) (ht : t.Aligned) :
    (s ++ t).Aligned := by
  refine ⟨hs.1.append ht.1, ?_⟩
  rw [sql_append, params_append, Text.placeholders_append hs.1, hs.2, ht.2, List.length_append]

/-- The parameters of an aligned statement stay in its part of a longer one. -/
theorem interpolated_append (d : Dialect) {s t : Statement} (hs : s.Aligned) :
    (s ++ t).interpolated d = s.interpolated d ++ t.interpolated d := by
  obtain ⟨hclean, hcount⟩ := hs
  rw [interpolated, sql_append, params_append, String.toList_append,
    interpolateFrom_append _ hcount, hclean, String.ofList_append]
  rfl

end Statement

/-! ## Pieces -/

namespace Piece

def statement (d : Dialect) (p : Piece) : Statement := Statement.empty.add d p

/-- What a piece would write with its parameters in place of their placeholders: for a
    placeholder the literal of its parameter, and for a fragment its text with the fragment's
    own parameters. -/
def inlined (d : Dialect) : Piece → String
  | text s => s
  | name n => d.quoteName n
  | param p => p.literal d.quoteValue
  | fragment sql params => Statement.interpolated d ⟨sql, params⟩

@[simp] theorem statement_text (d : Dialect) (s : String) : (text s).statement d = ⟨s, []⟩ := by
  simp [statement, Statement.add, Statement.empty]

@[simp] theorem statement_name (d : Dialect) (n : String) :
    (name n).statement d = ⟨d.quoteName n, []⟩ := by
  simp [statement, Statement.add, Statement.empty]

@[simp] theorem statement_param (d : Dialect) (p : Param) :
    (param p).statement d = ⟨"?", [p]⟩ := by
  simp [statement, Statement.add, Statement.empty]

@[simp] theorem statement_fragment (d : Dialect) (sql : String) (ps : List Param) :
    (fragment sql ps).statement d = ⟨sql, ps⟩ := by
  simp [statement, Statement.add, Statement.empty]

theorem interpolated_statement (d : Dialect) (p : Piece) :
    (p.statement d).interpolated d = p.inlined d := by
  cases p with
  | text s => simp [inlined, Statement.interpolated, Statement.interpolateFrom_nil]
  | name n => simp [inlined, Statement.interpolated, Statement.interpolateFrom_nil]
  | param p => simp [inlined, Statement.interpolated, Statement.interpolateFrom]
  | fragment sql ps => simp [inlined]

/-- What a piece writes is aligned. -/
def Aligned (d : Dialect) (p : Piece) : Prop := (p.statement d).Aligned

theorem aligned_text {d : Dialect} {s : String} (h : Text.Quiet s) : (text s).Aligned d := by
  rw [Aligned, statement_text]
  exact h

theorem aligned_name {d : Dialect} {n : String} (h : Text.Quiet (d.quoteName n)) :
    (name n).Aligned d := by
  rw [Aligned, statement_name]
  exact h

theorem aligned_param (d : Dialect) (p : Param) : (param p).Aligned d := by
  rw [Aligned, statement_param]
  have hclean : Text.Clean "?" := by decide
  have hcount : Text.placeholders "?" = 1 := by decide
  exact ⟨hclean, hcount⟩

theorem aligned_fragment {d : Dialect} {sql : String} {ps : List Param}
    (h : Statement.Aligned ⟨sql, ps⟩) : (fragment sql ps).Aligned d := by
  rw [Aligned, statement_fragment]
  exact h

end Piece

/-- Pieces that are aligned write an aligned statement, which with its parameters in place is the
    text of the pieces with their parameters in place. -/
theorem Statement.aligned_write (d : Dialect) {ps : List Piece} (h : ∀ p ∈ ps, p.Aligned d) :
    (empty.write d ps).Aligned ∧
      (empty.write d ps).interpolated d =
        String.ofList (ps.flatMap fun p => (p.inlined d).toList) := by
  induction ps with
  | nil => exact ⟨aligned_empty, rfl⟩
  | cons p ps ih =>
    obtain ⟨hp, hps⟩ := List.forall_mem_cons.1 h
    obtain ⟨haligned, hshown⟩ := ih hps
    -- what the first piece writes does not depend on the others
    have hwrite : empty.write d (p :: ps) = p.statement d ++ empty.write d ps := by
      rw [write_cons, write_eq_append]
      rfl
    refine ⟨by rw [hwrite]; exact Aligned.append hp haligned, ?_⟩
    rw [hwrite, interpolated_append d hp, Piece.interpolated_statement, hshown,
      List.flatMap_cons, String.ofList_append, String.ofList_toList]

/-! ## Renderings -/

namespace Rendering

/-- The text of a rendering with the parameters written in place of their placeholders. -/
def inlined (d : Dialect) (r : Rendering) : String :=
  String.ofList ((r.pieces d).flatMap fun p => (p.inlined d).toList)

/-- All pieces of the rendering are aligned, also those before an error. -/
def Aligned (d : Dialect) (r : Rendering) : Prop := ∀ p ∈ r.pieces d, p.Aligned d

/-- A rendering whose pieces are aligned writes an aligned statement. -/
theorem interpolated_writeTo {d : Dialect} {r : Rendering} (h : r.Aligned d) :
    (r.writeTo d .empty).Aligned ∧ (r.writeTo d .empty).interpolated d = r.inlined d :=
  Statement.aligned_write d h

variable {d : Dialect} {r s : Rendering}

theorem aligned_empty : empty.Aligned d := fun _ hp => absurd hp List.not_mem_nil

theorem aligned_fail (e : SqlError) : (fail e).Aligned d :=
  fun _ hp => absurd hp List.not_mem_nil

theorem aligned_single {p : Piece} (h : p.Aligned d) : (single (.piece p)).Aligned d := by
  intro p' hp'
  obtain rfl : p' = p := by simpa [pieces, single, Element.pieces] using hp'
  exact h

theorem aligned_text {t : String} (h : Text.Quiet t) : (text t).Aligned d :=
  aligned_single (Piece.aligned_text h)

theorem aligned_param (p : Param) : (param p).Aligned d :=
  aligned_single (Piece.aligned_param d p)

theorem Aligned.append (hr : r.Aligned d) (hs : s.Aligned d) : (r ++ s).Aligned d := by
  rw [append_def]
  split
  · intro p hp
    rw [pieces, List.flatMap_append, List.mem_append] at hp
    exact hp.elim (hr p) (hs p)
  · exact hr

theorem aligned_concat {rs : List Rendering} (h : ∀ r ∈ rs, r.Aligned d) :
    (concat rs).Aligned d := by
  induction rs with
  | nil => exact aligned_empty
  | cons r rs ih =>
    obtain ⟨hr, hrs⟩ := List.forall_mem_cons.1 h
    exact hr.append (ih hrs)

theorem aligned_sepBy {sep : String} (hsep : Text.Quiet sep) {rs : List Rendering}
    (h : ∀ r ∈ rs, r.Aligned d) : (sepBy sep rs).Aligned d := by
  induction rs with
  | nil => exact aligned_empty
  | cons r rs ih =>
    obtain ⟨hr, hrs⟩ := List.forall_mem_cons.1 h
    cases rs with
    | nil =>
      rw [sepBy_single]
      exact hr
    | cons s rs =>
      rw [sepBy_cons_cons]
      exact hr.append ((aligned_text hsep).append (ih hrs))

end Rendering

end EntitySql
