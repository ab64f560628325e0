import EntitySql.Proofs.Json.Grammar
import Mathlib.Data.List.Forall2

/-! # Written JSON is JSON

    The written forms of texts, truth values, arrays and objects are texts of
    the grammar. An escaped text spells that text, so a reader gets back what
    was written.
-/

namespace EntitySql.Json

/-! ## Strings -/

theorem isCode_hexDigit {n : Nat} (hn : n < 0x100) :
    IsCode ['0', '0', hexDigit (n / 16), hexDigit (n % 16)] n := by
  have hdigit : ∀ k < 16, IsHexDigit (hexDigit k) k := fun k hk => ⟨hk, .inl rfl⟩
  have hcode := IsCode.digits (hdigit 0 (by omega)) (hdigit 0 (by omega))
    (hdigit (n / 16) (by omega)) (hdigit (n % 16) (by omega))
  rwa [show ((0 * 16 + 0) * 16 + n / 16) * 16 + n % 16 = n by omega] at hcode

theorem spells_escape_append (c : Char) {lexeme text : List Char} (h : Spells lexeme text) :
    Spells (escape c ++ lexeme) (c :: text) := by
  unfold escape
  split
  -- the characters with an escape of their own
  iterate 7 exact .letter (by decide) h
  -- the others
  rename_i hquote hback _ _ _ _ _
  split
  · rename_i hcontrol
    exact .code (isCode_hexDigit (Nat.lt_trans hcontrol (by omega))) h
  · rename_i hcontrol
    exact .plain hquote hback (Nat.le_of_not_lt hcontrol) h

/-- An escaped text spells the text. -/
theorem spells_escape (text : List Char) : Spells (text.flatMap escape) text := by
  induction text with
  | nil => exact .nil
  | cons c text ih => exact spells_escape_append c ih

/-! ## Values -/

theorem writes_quoted (s : String) :
    Writes (.string (s.toList.flatMap escape)) (quoted s).toList := by
  rw [quoted, String.toList_ofList]
  exact .string (spells_escape s.toList)

theorem writes_truth (b : Bool) : Writes (.bool b) (truth b).toList := by
  cases b with
  | false => exact .false
  | true => exact .true

/-- Written values with commas between them. -/
theorem writesItems_intercalate {v : Json} {vs : List Json} {x : String} {xs : List String}
    (hx : Writes v x.toList) (hxs : List.Forall₂ (fun v x => Writes v x.toList) vs xs) :
    WritesItems (v :: vs) (",".intercalate (x :: xs)).toList := by
  induction hxs generalizing v x with
  | nil =>
    rw [String.intercalate_singleton]
    exact .one hx
  | cons hy _ ih =>
    rw [String.intercalate_cons_cons, String.toList_append, String.toList_append,
      List.append_assoc]
    exact .cons hx (ih hy)

theorem writes_bracketed {vs : List Json} {xs : List String}
    (h : List.Forall₂ (fun v x => Writes v x.toList) vs xs) :
    Writes (.array vs) (bracketed xs).toList := by
  rw [bracketed, String.toList_append, String.toList_append]
  cases h with
  | nil => exact .emptyArray (by simp [Space])
  | cons hx hxs => exact .array (writesItems_intercalate hx hxs)

theorem writesField_quoted {v : Json} {x : String} (name : String) (h : Writes v x.toList) :
    WritesField (name.toList.flatMap escape, v) (quoted name ++ ":" ++ x).toList := by
  have hspace : Space [] := by simp [Space]
  have hfield := WritesField.field hspace (spells_escape name.toList) hspace h
  simpa [quoted] using hfield

/-- Written fields with commas between them. -/
theorem writesFields_intercalate {f : List Char × Json} {fs : List (List Char × Json)}
    {x : String} {xs : List String} (hx : WritesField f x.toList)
    (hxs : List.Forall₂ (fun f x => WritesField f x.toList) fs xs) :
    WritesFields (f :: fs) (",".intercalate (x :: xs)).toList := by
  -- the first field stands apart, as no comma comes before it
  induction hxs generalizing f x with
  | nil =>
    rw [String.intercalate_singleton]
    exact .one hx
  | cons hy _ ih =>
    rw [String.intercalate_cons_cons, String.toList_append, String.toList_append,
      List.append_assoc]
    exact .cons hx (ih hy)

theorem writes_object {fs : List (List Char × Json)} {xs : List String}
    (h : List.Forall₂ (fun f x => WritesField f x.toList) fs xs) :
    Writes (.object fs) ("\x7b" ++ ",".intercalate xs ++ "\x7d").toList := by
  rw [String.toList_append, String.toList_append]
  cases h with
  | nil => exact .emptyObject (by simp [Space])
  | cons hx hxs => exact .object (writesFields_intercalate hx hxs)

/-- Fields with the written forms of their values, under the same names. -/
def WrittenFields : List (String × Json) → List (String × String) → Prop :=
  List.Forall₂ fun f x => f.1 = x.1 ∧ Writes f.2 x.2.toList

theorem WrittenFields.nil : WrittenFields [] [] := List.Forall₂.nil

theorem WrittenFields.cons (name : String) {x : String} {v : Json}
    {fields : List (String × Json)} {xs : List (String × String)} (h : Writes v x.toList)
    (hrest : WrittenFields fields xs) :
    WrittenFields ((name, v) :: fields) ((name, x) :: xs) :=
  List.Forall₂.cons ⟨rfl, h⟩ hrest

theorem writes_braced {fields : List (String × Json)} {xs : List (String × String)}
    (h : WrittenFields fields xs) :
    Writes (.object (fields.map fun f => (f.1.toList.flatMap escape, f.2)))
      (braced xs).toList := by
  refine writes_object ?_
  rw [List.forall₂_map_left_iff, List.forall₂_map_right_iff]
  refine h.imp fun f x h => ?_
  obtain ⟨hname, hvalue⟩ := h
  rw [← hname]
  exact writesField_quoted f.1 hvalue

end EntitySql.Json
