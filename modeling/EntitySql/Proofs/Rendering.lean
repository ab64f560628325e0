import EntitySql.Rendering

/-! # Laws of renderings

    What a rendering writes before it fails, and whether it fails, follow from
    those of its parts.
-/

namespace EntitySql.Rendering

theorem elements_append_of_ok {r s : Rendering} (h : r.failure = none) :
    (r ++ s).elements = r.elements ++ s.elements := by
  rw [append_def, h]

theorem failure_append_of_ok {r s : Rendering} (h : r.failure = none) :
    (r ++ s).failure = s.failure := by
  rw [append_def, h]

/-- Nothing follows an error. -/
theorem append_of_error {r s : Rendering} {e : SqlError} (h : r.failure = some e) :
    r ++ s = r := by
  rw [append_def, h]

theorem sepBy_cons_cons (sep : String) (r s : Rendering) (rs : List Rendering) :
    sepBy sep (r :: s :: rs) = r ++ (text sep ++ sepBy sep (s :: rs)) := rfl

/-- The text stands before each rendering but the first. -/
theorem sepBy_cons (sep : String) (r : Rendering) (rs : List Rendering) :
    sepBy sep (r :: rs) = r ++ concat (rs.map (text sep ++ ·)) := by
  induction rs generalizing r with
  | nil => rfl
  | cons s rs ih => rw [sepBy_cons_cons, ih, List.map_cons, concat_cons, append_assoc]

theorem sepBy_concat (sep : String) {rs : List Rendering} (h : rs ≠ []) (r : Rendering) :
    sepBy sep (rs ++ [r]) = sepBy sep rs ++ (text sep ++ r) := by
  obtain ⟨s, rs, rfl⟩ := List.exists_cons_of_ne_nil h
  rw [List.cons_append, sepBy_cons, sepBy_cons, List.map_append, concat_append, append_assoc]
  exact congrArg (fun t => s ++ (_ ++ t)) (append_empty _)

/-- Renderings that do not fail are written in full one after the other. -/
theorem concat_of_ok {rs : List Rendering} (h : ∀ r ∈ rs, r.failure = none) :
    (concat rs).failure = none ∧ (concat rs).elements = rs.flatMap elements := by
  induction rs with
  | nil => exact ⟨rfl, rfl⟩
  | cons r rs ih =>
    obtain ⟨hr, hrs⟩ := List.forall_mem_cons.1 h
    obtain ⟨hfail, helements⟩ := ih hrs
    rw [concat_cons, failure_append_of_ok hr, elements_append_of_ok hr, helements]
    exact ⟨hfail, rfl⟩

/-! ## Statements of parts -/

variable {d : Dialect}

theorem writeTo_append {r s : Rendering} (h : r.failure = none) (t : Statement) :
    (r ++ s).writeTo d t = r.writeTo d t ++ s.writeTo d .empty := by
  have hpieces : (r ++ s).pieces d = r.pieces d ++ s.pieces d := by
    unfold pieces
    rw [elements_append_of_ok h, List.flatMap_append]
  unfold writeTo
  rw [hpieces, Statement.write_append]
  exact Statement.write_eq_append d _ _

/-- The statement of renderings put together is made of those of the parts. -/
theorem statement_append (d : Dialect) (r s : Rendering) :
    (r ++ s).statement d = do
      let t ← r.statement d
      let u ← s.statement d
      return t ++ u := by
  unfold statement
  cases hr : r.failure with
  | some e =>
    rw [append_of_error hr, hr]
    rfl
  | none =>
    rw [failure_append_of_ok hr, writeTo_append hr]
    cases s.failure <;> rfl

theorem writeTo_text (d : Dialect) (t : String) : (text t).writeTo d .empty = ⟨t, []⟩ :=
  Statement.ext String.empty_append rfl

theorem statement_text (d : Dialect) (t : String) : (text t).statement d = .ok ⟨t, []⟩ :=
  congrArg Except.ok (writeTo_text d t)

theorem statement_name (d : Dialect) (n : String) :
    (name n).statement d = .ok ⟨d.quoteName n, []⟩ :=
  congrArg Except.ok (Statement.ext String.empty_append rfl)

/-- An expression that the dialect does not render by itself is written piece by piece. -/
theorem statement_expression {e : Expression} (h : d.render? e = none) :
    (expression e).statement d = .ok (Statement.empty.write d e.pieces) := by
  have hpieces : (expression e).pieces d = e.pieces := by
    show (d.render? e).getD e.pieces ++ [] = e.pieces
    rw [h, List.append_nil]
    rfl
  unfold statement writeTo
  rw [hpieces]
  rfl

end EntitySql.Rendering
