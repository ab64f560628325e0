import EntitySql.Proofs.Rendering

/-! # What a rendering binds

    The *bindings* of a rendering are the parameters of its placeholders in
    order, or the error that ended it. They follow from the rendering alone: any
    dialect that renders no expression by itself binds them
    (`map_params_statement`).

    The bindings of renderings put together are those of the parts, one after
    the other up to the first error. A rendering is *silent* if it binds nothing
    and does not fail; such parts can be left out of consideration.
-/

namespace EntitySql

/-! ## Parameters of parts -/

def Piece.params : Piece → List Param
  | text _ => []
  | name _ => []
  | param p => [p]
  | fragment _ ps => ps

def Element.params : Element → List Param
  | piece p => p.params
  | expression e => e.pieces.flatMap Piece.params

theorem Statement.params_write (d : Dialect) (s : Statement) (ps : List Piece) :
    (s.write d ps).params = s.params ++ ps.flatMap Piece.params := by
  induction ps generalizing s with
  | nil => exact (List.append_nil _).symm
  | cons p ps ih =>
    have hadd : (s.add d p).params = s.params ++ p.params := by
      cases p with
      | text t => exact (List.append_nil _).symm
      | name n => exact (List.append_nil _).symm
      | param p => rfl
      | fragment t ps => rfl
    rw [write_cons, ih, hadd, List.flatMap_cons, List.append_assoc]

namespace Rendering

/-! ## Bindings -/

/-- The parameters of a rendering, or its error. -/
def bindings (r : Rendering) : Except SqlError (List Param) :=
  match r.failure with
  | none => .ok (r.elements.flatMap Element.params)
  | some e => .error e

section pieces

variable {d : Dialect} (hd : ∀ e, d.render? e = none)
include hd

theorem flatMap_params_pieces (r : Rendering) :
    (r.pieces d).flatMap Piece.params = r.elements.flatMap Element.params := by
  have helement : ∀ e : Element, (e.pieces d).flatMap Piece.params = e.params := by
    intro e
    cases e with
    | piece p => exact List.append_nil _
    | expression e =>
      show ((d.render? e).getD e.pieces).flatMap Piece.params = _
      -- a dialect that leaves expressions alone writes the expression's own pieces, whose
      -- parameters these are
      rw [hd]
      rfl
  unfold pieces
  rw [List.flatMap_assoc, funext helement]

/-- These are the parameters of the rendering's statement. -/
theorem map_params_statement (r : Rendering) :
    (r.statement d).map Statement.params = r.bindings := by
  unfold statement bindings
  cases r.failure with
  | some e => rfl
  | none =>
    show Except.ok (r.writeTo d .empty).params = _
    rw [writeTo, Statement.params_write, flatMap_params_pieces hd]
    rfl

end pieces

variable {r s r' s' : Rendering}

theorem bindings_append (r s : Rendering) :
    (r ++ s).bindings = do
      let ps ← r.bindings
      let qs ← s.bindings
      return ps ++ qs := by
  unfold bindings
  cases hr : r.failure with
  | some e =>
    -- after an error it does not matter what the second rendering binds
    rw [append_of_error hr, hr]
    rfl
  | none =>
    rw [failure_append_of_ok hr, elements_append_of_ok hr]
    cases s.failure with
    | some e => rfl
    | none => exact congrArg Except.ok List.flatMap_append

/-- Parts can be replaced by parts of the same bindings. -/
theorem bindings_append_congr (hr : r.bindings = r'.bindings) (hs : s.bindings = s'.bindings) :
    (r ++ s).bindings = (r' ++ s').bindings := by
  rw [bindings_append, bindings_append, hr, hs]

theorem bindings_concat (rs : List Rendering) :
    (concat rs).bindings = (rs.mapM bindings).map List.flatten := by
  induction rs with
  | nil => rfl
  | cons r rs ih =>
    rw [concat_cons, bindings_append, ih, List.mapM_cons]
    cases r.bindings with
    | error e => rfl
    | ok ps => cases rs.mapM bindings <;> rfl

/-! ## Silent renderings -/

/-- The rendering binds nothing and does not fail. -/
def Silent (r : Rendering) : Prop := r.bindings = .ok []

theorem silent_empty : empty.Silent := rfl

theorem silent_text (t : String) : (text t).Silent := rfl

theorem silent_name (n : String) : (name n).Silent := rfl

theorem Silent.bindings_append (h : r.Silent) (s : Rendering) :
    (r ++ s).bindings = s.bindings := by
  rw [Rendering.bindings_append, h]
  cases s.bindings <;> rfl

theorem bindings_append_of_silent (r : Rendering) (h : s.Silent) :
    (r ++ s).bindings = r.bindings := by
  rw [bindings_append, h]
  cases r.bindings with
  | error e => rfl
  | ok ps => exact congrArg Except.ok (List.append_nil ps)

theorem Silent.append (hr : r.Silent) (hs : s.Silent) : (r ++ s).Silent := by
  rw [Silent, hr.bindings_append]
  exact hs

theorem silent_concat {rs : List Rendering} (h : ∀ r ∈ rs, r.Silent) : (concat rs).Silent := by
  induction rs with
  | nil => exact silent_empty
  | cons r rs ih =>
    obtain ⟨hr, hrs⟩ := List.forall_mem_cons.1 h
    exact hr.append (ih hrs)

/-- A line that may be left out. -/
theorem silent_line (b : Bool) (h : r.Silent) : (concat (if b then [] else [r])).Silent := by
  split
  · exact silent_empty
  · exact silent_concat (List.forall_mem_singleton.2 h)

/-- The text between renderings binds nothing. -/
theorem bindings_sepBy (sep : String) (rs : List Rendering) :
    (sepBy sep rs).bindings = (concat rs).bindings := by
  induction rs with
  | nil => rfl
  | cons r rs ih =>
    cases rs with
    | nil => rfl
    | cons s rs =>
      rw [sepBy_cons_cons, concat_cons]
      apply bindings_append_congr rfl
      rw [(silent_text sep).bindings_append, ih]

theorem silent_sepBy (sep : String) {rs : List Rendering} (h : ∀ r ∈ rs, r.Silent) :
    (sepBy sep rs).Silent := by
  rw [Silent, bindings_sepBy]
  exact silent_concat h

end Rendering

end EntitySql
