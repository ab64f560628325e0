import EntitySql.Statement

/-! # Renderings

    A `Rendering` is a statement before any dialect has been chosen: the
    elements to be written, each a piece or an expression that a dialect may
    render in its own way, and the error that ended the rendering, if one did.
    The elements before an error are kept.

    Renderings are put together by `++`, where nothing follows an error, and
    those of a list by `concat` and `sepBy`. A dialect is only asked for when a
    rendering is written to a statement (`writeTo`), so no dialect decides
    whether a rendering fails, and on which error.
-/

namespace EntitySql

/-! ## Elements -/

/-- A piece, or an expression as a whole. -/
inductive Element where
  | piece (p : Piece)
  | expression (e : Expression)
  deriving DecidableEq, Repr, Inhabited

def Element.pieces (d : Dialect) : Element → List Piece
  | piece p => [p]
  | expression e => d.pieces e

/-! ## Renderings -/

/-- Elements to be written, and the error after the last of them, if there is one. -/
structure Rendering where
  elements : List Element
  failure : Option SqlError
  deriving DecidableEq, Repr, Inhabited

namespace Rendering

def empty : Rendering := ⟨[], none⟩

def single (e : Element) : Rendering := ⟨[e], none⟩

def text (s : String) : Rendering := single (.piece (.text s))

def name (n : String) : Rendering := single (.piece (.name n))

def param (p : Param) : Rendering := single (.piece (.param p))

def expression (e : Expression) : Rendering := single (.expression e)

/-- An error, with nothing before it. -/
def fail (e : SqlError) : Rendering := ⟨[], some e⟩

/-- One rendering after the other, unless the first one fails. -/
def append (r s : Rendering) : Rendering :=
  match r.failure with
  | none => ⟨r.elements ++ s.elements, s.failure⟩
  | some _ => r

instance : Append Rendering := ⟨append⟩

/-- Renderings one after the other, up to the first that fails. -/
def concat (rs : List Rendering) : Rendering := rs.foldr append empty

/-- Renderings with a text between each two of them. -/
def sepBy (sep : String) (rs : List Rendering) : Rendering := concat (rs.intersperse (text sep))

theorem append_def (r s : Rendering) :
    r ++ s = match r.failure with
      | none => ⟨r.elements ++ s.elements, s.failure⟩
      | some _ => r := rfl

@[simp] theorem empty_append (r : Rendering) : empty ++ r = r := rfl

@[simp] theorem append_empty (r : Rendering) : r ++ empty = r := by
  obtain ⟨es, f⟩ := r
  cases f <;> simp [append_def, empty]

@[simp] theorem fail_append (e : SqlError) (r : Rendering) : fail e ++ r = fail e := rfl

theorem append_assoc (r s t : Rendering) : r ++ s ++ t = r ++ (s ++ t) := by
  obtain ⟨es, f⟩ := r
  obtain ⟨fs, g⟩ := s
  cases f <;> cases g <;> simp [append_def]

@[simp] theorem concat_nil : concat [] = empty := rfl

@[simp] theorem concat_cons (r : Rendering) (rs : List Rendering) :
    concat (r :: rs) = r ++ concat rs := rfl

@[simp] theorem concat_append (rs ss : List Rendering) :
    concat (rs ++ ss) = concat rs ++ concat ss := by
  induction rs with
  | nil => rfl
  | cons r rs ih => simp [ih, append_assoc]

@[simp] theorem sepBy_nil (sep : String) : sepBy sep [] = empty := rfl

@[simp] theorem sepBy_single (sep : String) (r : Rendering) : sepBy sep [r] = r :=
  append_empty r

/-! ## Writing -/

def pieces (d : Dialect) (r : Rendering) : List Piece := r.elements.flatMap (Element.pieces d)

/-- The statement with the elements appended, whether the rendering fails or not. -/
def writeTo (d : Dialect) (s : Statement) (r : Rendering) : Statement := s.write d (r.pieces d)

/-- What a rendering appends does not depend on what is there before it. -/
theorem writeTo_eq_append (d : Dialect) (s : Statement) (r : Rendering) :
    r.writeTo d s = s ++ r.writeTo d .empty :=
  Statement.write_eq_append d s (r.pieces d)

/-- The rendering as a statement of its own, or its error. -/
def statement (d : Dialect) (r : Rendering) : Except SqlError Statement :=
  match r.failure with
  | none => .ok (r.writeTo d .empty)
  | some e => .error e

/-- The rendering's text, or its error, and the bindings with those of the rendering
    appended. Those before an error are appended too. -/
def fragment (d : Dialect) (bindings : List Param) (r : Rendering) :
    Except SqlError String × List Param :=
  let s := r.writeTo d ⟨"", bindings⟩
  (match r.failure with
    | none => .ok s.sql
    | some e => .error e, s.params)

end Rendering

end EntitySql
