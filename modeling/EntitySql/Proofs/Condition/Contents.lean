import EntitySql.Proofs.Condition.Meaning
import EntitySql.Proofs.Outcome
import EntitySql.Proofs.Rendering
import EntitySql.Query

/-! # Contents of written condition groups

    What is written of a condition group are its atoms, with connectives and
    parentheses between them: no atom is left out, and none is written twice or
    elsewhere than in the order of the tree. So the group binds what its
    predicates bind, one after the other, and fails on the first of them that
    fails.

    A group is empty if and only if it has no atoms. An update or a deletion
    leaves its conditions out only then.
-/

namespace EntitySql

/-! ## Texts of atoms and tokens -/

namespace Atom

def rendering : Atom → Rendering
  | predicate p => p.rendering
  | raw sql => .text sql

def text (d : Dialect) (a : Atom) : String := (a.rendering.writeTo d .empty).sql

end Atom

/-- What predicates are written as, each by itself, or the first error among them. -/
def Predicate.statements (d : Dialect) (ps : List Predicate) : Except SqlError (List Statement) :=
  ps.mapM fun p => p.rendering.statement d

theorem Predicate.statements_cons (d : Dialect) (p : Predicate) (ps : List Predicate) :
    statements d (p :: ps) = do
      let own ← p.rendering.statement d
      let rest ← statements d ps
      return own :: rest :=
  List.mapM_cons

namespace Condition

def Token.text (d : Dialect) (t : Token) : String := (t.rendering.writeTo d .empty).sql

/-- A token that stands for an atom is rendered as the atom. -/
theorem Token.rendering_of_atom? {t : Token} {a : Atom} (h : t.atom? = some a) :
    t.rendering = a.rendering := by
  cases t with
  | predicate p =>
    obtain rfl := Option.some.inj h
    rfl
  | raw sql =>
    obtain rfl := Option.some.inj h
    rfl
  | _ => exact absurd h nofun

/-- The others are connectives and parentheses. -/
theorem Token.text_of_atom?_eq_none {t : Token} (h : t.atom? = none) (d : Dialect) :
    t.text d ∈ [" AND ", " OR ", "(", ")"] := by
  have htext (s : String) : ((Rendering.text s).writeTo d .empty).sql = s :=
    congrArg Statement.sql (Rendering.writeTo_text d s)
  unfold Token.text
  -- predicates and texts are atoms, so these two are excluded
  cases t with
  | predicate p => exact absurd h nofun
  | raw sql => exact absurd h nofun
  | connective c =>
    rw [Token.rendering, htext]
    cases c <;> decide
  | opening =>
    rw [Token.rendering, htext]
    decide
  | closing =>
    rw [Token.rendering, htext]
    decide

/-- The texts of the tokens that stand for atoms are those of the atoms. -/
theorem texts_of_atoms (d : Dialect) (ts : List Token) :
    (ts.filter fun t => t.atom?.isSome).map (Token.text d) =
      (ts.filterMap Token.atom?).map (Atom.text d) := by
  induction ts with
  | nil => rfl
  | cons t ts ih =>
    -- a token without an atom is left out on both sides
    cases hatom : t.atom? with
    | none => rw [List.filterMap_cons_none hatom, ← ih, List.filter_cons_of_neg (by simp [hatom])]
    | some a =>
      have htext : t.text d = a.text d := by
        unfold Token.text Atom.text
        rw [Token.rendering_of_atom? hatom]
      rw [List.filterMap_cons_some hatom, List.filter_cons_of_pos (by simp [hatom]), List.map_cons,
        List.map_cons, htext, ih]

/-! ## Statements of tokens -/

def Token.predicates (ts : List Token) : List Predicate :=
  (ts.filterMap Token.atom?).filterMap Atom.predicate?

/-- Tokens are written one after the other, and those that are predicates bind what they bind
    by themselves, unless one of them fails. -/
theorem statement_tokens (d : Dialect) (ts : List Token) :
    (Rendering.concat (ts.map Token.rendering)).statement d =
      (Predicate.statements d (Token.predicates ts)).map fun own =>
        ⟨String.join (ts.map (Token.text d)), own.flatMap Statement.params⟩ := by
  induction ts with
  | nil => rfl
  | cons t ts ih =>
    -- a token that is a text neither fails nor binds anything
    have hsilent {s : String} (hs : t.rendering = .text s) :
        (t.rendering ++ Rendering.concat (ts.map Token.rendering)).statement d =
          (Predicate.statements d (Token.predicates ts)).map fun own =>
            ⟨String.join (t.text d :: ts.map (Token.text d)), own.flatMap Statement.params⟩ := by
      have htext : t.text d = s := by
        unfold Token.text
        rw [hs, Rendering.writeTo_text]
      rw [hs, htext, Rendering.statement_append, Rendering.statement_text, ih, String.join_cons]
      cases Predicate.statements d (Token.predicates ts) <;> rfl
    rw [List.map_cons, List.map_cons, Rendering.concat_cons]
    cases t with
    | predicate p =>
      show _ = (Predicate.statements d (p :: Token.predicates ts)).map _
      rw [Token.rendering, Rendering.statement_append, ih, Predicate.statements_cons,
        String.join_cons]
      unfold Token.text Token.rendering Rendering.statement
      cases p.rendering.failure with
      | some e => rfl
      | none => cases Predicate.statements d (Token.predicates ts) <;> rfl
    | raw sql => exact hsilent rfl
    | connective c => exact hsilent rfl
    | opening => exact hsilent rfl
    | closing => exact hsilent rfl

end Condition

/-! ## Statements of groups -/

namespace ConditionGroup

/-- The group's atoms are written one after the other, and between them there are only connectives
    and parentheses. -/
structure WrittenAs (d : Dialect) (g : ConditionGroup) (sql : String) : Prop where
  tokens : sql = String.join (g.tokens.map (Condition.Token.text d))
  atoms : (g.tokens.filter fun t => t.atom?.isSome).map (Condition.Token.text d) =
    g.atoms.map (Atom.text d)
  others : ∀ t ∈ g.tokens, t.atom? = none → t.text d ∈ [" AND ", " OR ", "(", ")"]

theorem predicates_tokens (g : ConditionGroup) :
    Condition.Token.predicates g.tokens = g.predicates := by
  unfold Condition.Token.predicates
  rw [filterMap_atom?_tokens]
  exact Condition.filterMap_predicate?_atoms g.toCondition

theorem writtenAs (d : Dialect) (g : ConditionGroup) :
    g.WrittenAs d (String.join (g.tokens.map (Condition.Token.text d))) := by
  refine ⟨rfl, ?_, ?_⟩
  · rw [Condition.texts_of_atoms, filterMap_atom?_tokens]
  · intro t _ ht
    exact Condition.Token.text_of_atom?_eq_none ht d

/-- A group is empty if and only if it has no atoms. -/
theorem isEmpty_iff_atoms (g : ConditionGroup) : g.isEmpty = true ↔ g.atoms = [] := by
  rw [← isEmpty_toCondition]
  exact Condition.atoms_eq_nil_iff.symm

/-- The line of conditions at the end of a statement. It is absent if the group has no atoms. -/
def whereLine (d : Dialect) (g : ConditionGroup) : Except SqlError Statement :=
  if g.atoms = [] then .ok .empty
  else do
    let own ← g.rendering.statement d
    return ⟨"\nWHERE ", []⟩ ++ own

end ConditionGroup

/-! ## Updates and deletions -/

namespace Query

/-- An update up to its conditions. -/
def updateHead (q : Query) : Rendering :=
  if q.values.isEmpty then .fail (.unsupported (.updateWithoutValues q.table))
  else .sepBy "\n" [.text "UPDATE " ++ .name q.table,
    .text "SET " ++ .sepBy ", " (q.values.entries.map fun e => assignment e.1 e.2)]

/-- Conditions follow other lines on a line of their own, unless there are none. -/
theorem statement_conditionLine (d : Dialect) {lines : List Rendering} (h : lines ≠ [])
    (g : ConditionGroup) :
    (Rendering.sepBy "\n" (lines ++ conditionLine "WHERE " g)).statement d = (do
      let head ← (Rendering.sepBy "\n" lines).statement d
      let line ← g.whereLine d
      return head ++ line) := by
  unfold conditionLine ConditionGroup.whereLine
  -- the line is absent, or it is the last one after a line break
  by_cases hempty : g.isEmpty = true
  · rw [if_pos hempty, if_pos (g.isEmpty_iff_atoms.1 hempty), List.append_nil]
    cases (Rendering.sepBy "\n" lines).statement d with
    | error e => rfl
    | ok head => exact congrArg Except.ok (Statement.append_empty head).symm
  · rw [if_neg hempty, if_neg (mt g.isEmpty_iff_atoms.2 hempty), Rendering.sepBy_concat _ h]
    simp only [Rendering.statement_append, Rendering.statement_text]
    cases (Rendering.sepBy "\n" lines).statement d with
    | error e => rfl
    | ok head =>
      cases g.rendering.statement d with
      | error e => rfl
      | ok own =>
        have hkeyword : "\n" ++ ("WHERE " ++ own.sql) = "\nWHERE " ++ own.sql := by
          rw [← String.append_assoc]
          rfl
        exact congrArg (fun s => Except.ok (head ++ s)) (Statement.ext hkeyword rfl)

theorem statement_renderUpdate (d : Dialect) (q : Query) :
    q.renderUpdate.statement d = (do
      let head ← q.updateHead.statement d
      let line ← q.conditions.whereLine d
      return head ++ line) := by
  unfold renderUpdate updateHead
  by_cases hempty : q.values.isEmpty = true
  · rw [if_pos hempty, if_pos hempty]
    rfl
  · rw [if_neg hempty, if_neg hempty]
    exact statement_conditionLine d (by simp) q.conditions

theorem statement_renderDelete (d : Dialect) (q : Query) :
    q.renderDelete.statement d = (do
      let line ← q.conditions.whereLine d
      return ⟨"DELETE FROM " ++ d.quoteName q.table, []⟩ ++ line) := by
  have hhead : (Rendering.sepBy "\n" [.text "DELETE FROM " ++ .name q.table]).statement d =
      .ok ⟨"DELETE FROM " ++ d.quoteName q.table, []⟩ := by
    rw [Rendering.sepBy_single, Rendering.statement_append, Rendering.statement_text,
      Rendering.statement_name]
    rfl
  have hne : [Rendering.text "DELETE FROM " ++ .name q.table] ≠ [] := List.cons_ne_nil _ _
  have hlines := statement_conditionLine d hne q.conditions
  rw [hhead] at hlines
  exact hlines

end Query

/-! ## What a group is written as -/

/-- Rendering a group fails if and only if one of its predicates does when it is rendered by
    itself, and on the error of the first one, depth first. Otherwise the group binds what its
    predicates bind by themselves, in this order, and its text is that of its atoms, each once and
    in the order of the tree, with connectives and parentheses between them. The predicates are
    among the atoms, and only an empty group has none. Updates and deletions have a line for their
    conditions, unless these have no atoms. -/
theorem ConditionGroup.rendering_keeps_atoms (d : Dialect) (g : ConditionGroup) :
    (∀ e, g.rendering.statement d = .error e ↔
      Outcome.FirstError (fun p : Predicate => p.rendering.statement d) g.predicates e) ∧
    (∀ s, g.rendering.statement d = .ok s ↔
      ∃ own, Predicate.statements d g.predicates = .ok own ∧
        s.params = own.flatMap Statement.params ∧ g.WrittenAs d s.sql) ∧
    g.atoms.filterMap Atom.predicate? = g.predicates ∧
    (g.isEmpty = true ↔ g.atoms = []) ∧
    ∀ q : Query, q.conditions = g →
      q.renderUpdate.statement d = (do
        let head ← q.updateHead.statement d
        let line ← g.whereLine d
        return head ++ line) ∧
      q.renderDelete.statement d = (do
        let line ← g.whereLine d
        return ⟨"DELETE FROM " ++ d.quoteName q.table, []⟩ ++ line) := by
  -- the whole rendering as one traversal of the predicates, from which both the error and the text
  -- are read off
  have hstatement : g.rendering.statement d =
      (Predicate.statements d g.predicates).map fun own =>
        ⟨String.join (g.tokens.map (Condition.Token.text d)), own.flatMap Statement.params⟩ := by
    rw [← predicates_tokens]
    exact Condition.statement_tokens d g.tokens
  refine ⟨?_, ?_, Condition.filterMap_predicate?_atoms g.toCondition, g.isEmpty_iff_atoms, ?_⟩
  · intro e
    rw [hstatement, Outcome.map_eq_error_iff]
    exact Outcome.mapM_eq_error_iff
  · intro s
    rw [hstatement, Outcome.map_eq_ok_iff]
    refine exists_congr fun own => and_congr_right fun _ => ?_
    constructor
    · rintro rfl
      exact ⟨rfl, g.writtenAs d⟩
    · rintro ⟨hparams, hsql⟩
      exact Statement.ext hsql.tokens.symm hparams.symm
  · rintro q rfl
    exact ⟨q.statement_renderUpdate d, q.statement_renderDelete d⟩

/-- A tree with an empty group and a blank text at some depth, which are not written, and one in
    which two predicates have unknown operators, of which the first in the tree is reported. -/
theorem ConditionGroup.rendering_keeps_atoms_nested :
    let x : Condition := .predicate (.ofValue "x" "=" (.int 1))
    let y : Condition := .predicate (.ofValue "y" "=" (.int 2))
    let z : Condition := .predicate (.ofValue "z" "~~" (.int 3))
    let w : Condition := .predicate (.ofValue "w" "!" (.int 4))
    let g : ConditionGroup := ⟨.or, [.group .and [x, .group .or [y, .raw " "]], .group .and [],
      .raw "deleted"]⟩
    let h : ConditionGroup := ⟨.and, [.group .or [x, .group .and [z]], w]⟩
    (∃ own, Predicate.statements .postgres g.predicates = .ok own ∧
      own.flatMap Statement.params = [.int 1, .int 2]) ∧
    g.WrittenAs .postgres "(\"x\" = ? AND \"y\" = ?) OR deleted" ∧
    (({ Query.of .delete "users" with conditions := g } : Query).renderDelete.statement .postgres =
      .ok ⟨"DELETE FROM \"users\"\nWHERE (\"x\" = ? AND \"y\" = ?) OR deleted",
        [.int 1, .int 2]⟩) ∧
    h.rendering.statement .postgres = .error (.unsupported (.operator "~~")) := by
  intro x y z w g h
  have hg : g.rendering.statement .postgres =
      .ok ⟨"(\"x\" = ? AND \"y\" = ?) OR deleted", [.int 1, .int 2]⟩ := by
    decide +kernel
  obtain ⟨-, hok, -, -, hqueries⟩ := rendering_keeps_atoms .postgres g
  obtain ⟨hfails, -⟩ := rendering_keeps_atoms .postgres h
  obtain ⟨own, hown, hparams, hwritten⟩ := (hok _).1 hg
  obtain ⟨-, hdelete⟩ := hqueries { Query.of .delete "users" with conditions := g } rfl
  refine ⟨⟨own, hown, hparams.symm⟩, hwritten, hdelete.trans ?_, (hfails _).2 ?_⟩
  · decide +kernel
  -- the first predicate can be rendered, the second one cannot
  · refine ⟨[.ofValue "x" "=" (.int 1)], .ofValue "z" "~~" (.int 3),
      [.ofValue "w" "!" (.int 4)], rfl, ?_, by decide +kernel⟩
    intro p hp
    obtain rfl := List.mem_singleton.1 hp
    exact ⟨⟨"\"x\" = ?", [.int 1]⟩, by decide +kernel⟩

end EntitySql
