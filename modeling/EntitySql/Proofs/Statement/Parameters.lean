import EntitySql.Proofs.Rendering
import Mathlib.Data.List.Forall2

/-! # Statements up to their parameters

    Two expressions, pieces or renderings have the *same shape* if they differ
    in nothing but the values of their parameters: they hold as many of them at
    the same places. What is put together from parts of the same shape has the
    same shape again.

    Renderings of the same shape fail on the same error or write the same text
    with as many parameters (`SameShape.statement`). So what is written can
    depend on a parameter only where a rendering is made from it.
-/

namespace EntitySql

/-! ## Shapes -/

/-- The expressions differ at most in the parameters of a prepared fragment. -/
inductive Expression.SameShape : Expression → Expression → Prop where
  | raw (text : String) : SameShape (.raw text) (.raw text)
  | key (name : String) (aliasName : Option String) :
    SameShape (.key name aliasName) (.key name aliasName)
  | sql (text : String) {ps qs : List Param} (h : ps.length = qs.length) :
    SameShape (.sql text ps) (.sql text qs)

/-- So do the pieces, where any two parameters of a placeholder may stand for one another. -/
inductive Piece.SameShape : Piece → Piece → Prop where
  | text (s : String) : SameShape (.text s) (.text s)
  | name (n : String) : SameShape (.name n) (.name n)
  | param (p q : Param) : SameShape (.param p) (.param q)
  | fragment (sql : String) {ps qs : List Param} (h : ps.length = qs.length) :
    SameShape (.fragment sql ps) (.fragment sql qs)

inductive Element.SameShape : Element → Element → Prop where
  | piece {p q : Piece} (h : p.SameShape q) : SameShape (.piece p) (.piece q)
  | expression {e f : Expression} (h : e.SameShape f) : SameShape (.expression e) (.expression f)

/-- The renderings have elements of the same shapes and end with the same error, if any. -/
structure Rendering.SameShape (r s : Rendering) : Prop where
  elements : List.Forall₂ Element.SameShape r.elements s.elements
  failure : r.failure = s.failure

@[refl] theorem Expression.SameShape.refl (e : Expression) : e.SameShape e := by
  cases e with
  | raw text => exact .raw text
  | key name aliasName => exact .key name aliasName
  | sql text params => exact .sql text rfl

@[refl] theorem Piece.SameShape.refl (p : Piece) : p.SameShape p := by
  cases p with
  | text s => exact .text s
  | name n => exact .name n
  | param p => exact .param p p
  | fragment sql params => exact .fragment sql rfl

@[refl] theorem Element.SameShape.refl (e : Element) : e.SameShape e := by
  cases e with
  | piece p => exact .piece (.refl p)
  | expression e => exact .expression (.refl e)

/-! ## Renderings put together -/

namespace Rendering

variable {r s r' s' : Rendering}

@[refl] theorem SameShape.refl (r : Rendering) : r.SameShape r :=
  ⟨List.forall₂_same.2 fun e _ => .refl e, rfl⟩

theorem sameShape_single {e f : Element} (h : e.SameShape f) :
    (single e).SameShape (single f) := ⟨.cons h .nil, rfl⟩

theorem sameShape_param (p q : Param) : (param p).SameShape (param q) :=
  sameShape_single (.piece (.param p q))

theorem sameShape_expression {e f : Expression} (h : e.SameShape f) :
    (expression e).SameShape (expression f) := sameShape_single (.expression h)

theorem SameShape.append (h : r.SameShape s) (h' : r'.SameShape s') :
    (r ++ r').SameShape (s ++ s') := by
  rw [append_def, append_def, h.failure]
  cases hs : s.failure with
  | none => exact ⟨List.rel_append h.elements h'.elements, h'.failure⟩
  | some e => exact h

theorem sameShape_concat {rs ss : List Rendering} (h : List.Forall₂ SameShape rs ss) :
    (concat rs).SameShape (concat ss) := by
  induction h with
  | nil => exact .refl empty
  | cons hr _ ih => exact hr.append ih

theorem sameShape_sepBy (sep : String) {rs ss : List Rendering}
    (h : List.Forall₂ SameShape rs ss) : (sepBy sep rs).SameShape (sepBy sep ss) := by
  induction h with
  | nil => exact .refl empty
  | cons hr hrs ih =>
    cases hrs with
    | nil =>
      rw [sepBy_single, sepBy_single]
      exact hr
    | cons =>
      rw [sepBy_cons_cons, sepBy_cons_cons]
      exact hr.append ((SameShape.refl (text sep)).append ih)

/-- The renderings of the members of two lists, one by one. -/
theorem sameShape_sepBy_map {α β : Type} {R : α → β → Prop} (sep : String)
    {f : α → Rendering} {g : β → Rendering} (hfg : ∀ a b, R a b → (f a).SameShape (g b))
    {as : List α} {bs : List β} (h : List.Forall₂ R as bs) :
    (sepBy sep (as.map f)).SameShape (sepBy sep (bs.map g)) := by
  apply sameShape_sepBy
  rw [List.forall₂_map_left_iff, List.forall₂_map_right_iff]
  exact h.imp hfg

end Rendering

/-! ## What is written -/

section written

variable {d : Dialect}

theorem Expression.SameShape.pieces {e f : Expression} (h : e.SameShape f) :
    List.Forall₂ Piece.SameShape e.pieces f.pieces := by
  cases h with
  | raw text => exact .cons (.text text) .nil
  | key name aliasName =>
    cases aliasName with
    | none => exact .cons (.name name) .nil
    | some a => exact .cons (.name name) (.cons (.text " AS ") (.cons (.name a) .nil))
  | sql text h => exact .cons (.fragment text h) .nil

/-- A dialect that renders no expression by itself keeps the shape. -/
theorem Element.SameShape.pieces (hd : ∀ e, d.render? e = none) {e f : Element}
    (h : e.SameShape f) : List.Forall₂ Piece.SameShape (e.pieces d) (f.pieces d) := by
  cases h with
  | piece h => exact .cons h .nil
  | @expression e f h =>
    show List.Forall₂ Piece.SameShape ((d.render? e).getD e.pieces) ((d.render? f).getD f.pieces)
    rw [hd, hd]
    exact h.pieces

/-- One piece of the same shape extends texts that are equal, and as many parameters, alike. -/
theorem Piece.SameShape.add {p q : Piece} (h : p.SameShape q) {s t : Statement}
    (hsql : s.sql = t.sql) (hparams : s.params.length = t.params.length) :
    (s.add d p).sql = (t.add d q).sql ∧
      (s.add d p).params.length = (t.add d q).params.length := by
  cases h with
  | text u => exact ⟨congrArg (· ++ u) hsql, hparams⟩
  | name n => exact ⟨congrArg (· ++ d.quoteName n) hsql, hparams⟩
  | param p q =>
    refine ⟨congrArg (· ++ "?") hsql, ?_⟩
    show (s.params ++ [p]).length = (t.params ++ [q]).length
    rw [List.length_append, List.length_append, hparams, List.length_singleton,
      List.length_singleton]
  | @fragment sql ps qs h =>
    refine ⟨congrArg (· ++ sql) hsql, ?_⟩
    show (s.params ++ ps).length = (t.params ++ qs).length
    rw [List.length_append, List.length_append, hparams, h]

/-- So do pieces one after the other. -/
theorem Statement.write_of_sameShape {ps qs : List Piece}
    (h : List.Forall₂ Piece.SameShape ps qs) {s t : Statement} (hsql : s.sql = t.sql)
    (hparams : s.params.length = t.params.length) :
    (s.write d ps).sql = (t.write d qs).sql ∧
      (s.write d ps).params.length = (t.write d qs).params.length := by
  induction h generalizing s t with
  | nil => exact ⟨hsql, hparams⟩
  | cons hp _ ih =>
    obtain ⟨hsql', hparams'⟩ := hp.add (d := d) hsql hparams
    exact ih hsql' hparams'

/-- Renderings of the same shape fail on the same error, or write the same text with as many
    parameters. -/
theorem Rendering.SameShape.statement (hd : ∀ e, d.render? e = none) {r s : Rendering}
    (h : r.SameShape s) :
    (r.statement d).map (fun t => (t.sql, t.params.length)) =
      (s.statement d).map (fun t => (t.sql, t.params.length)) := by
  -- without rewritten expressions the pieces of both sides have the same shape, and writing them
  -- adds the same text and equally many parameters
  have hpieces : List.Forall₂ Piece.SameShape (r.pieces d) (s.pieces d) :=
    List.rel_flatMap h.elements fun _ _ he => he.pieces hd
  obtain ⟨hsql, hparams⟩ := Statement.write_of_sameShape (d := d) hpieces
    (s := .empty) (t := .empty) rfl rfl
  unfold Rendering.statement
  rw [h.failure]
  cases s.failure with
  | some e => rfl
  | none => exact congrArg Except.ok (Prod.ext hsql hparams)

end written

end EntitySql
