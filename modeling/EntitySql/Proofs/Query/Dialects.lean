import EntitySql.Proofs.Query.Building
import EntitySql.Proofs.Statement.Bindings

/-! # One query under several dialects

    The *segments* of a rendering are the texts that stand as they are and the
    names between them. They are known before a dialect is chosen, and so are
    the bindings. A dialect that renders no expression by itself has one thing
    left to do: it spells each name in its own way.

    What has been written at any point is therefore what was there, followed by
    the spelled segments and the parameters so far, and this holds up to the
    point where a rendering fails. The same is so of the program that builds a
    rendering. Under two such dialects a query fails on the same error or binds
    the same parameters, and the texts differ only in how names are quoted.
-/

namespace EntitySql

/-! ## Segments -/

/-- A part of a text before a dialect has been chosen. -/
inductive Segment where
  /-- Stands as it is -/
  | verbatim (s : String)
  /-- A name to be quoted -/
  | name (n : String)
  deriving DecidableEq, Repr, Inhabited

namespace Segment

/-- The segment under a way to quote names. -/
def spelled (quote : String → String) : Segment → String
  | verbatim s => s
  | name n => quote n

/-- Segments under a way to quote names, one after the other. -/
def spell (quote : String → String) (segments : List Segment) : String :=
  String.join (segments.map (spelled quote))

variable (quote : String → String)

theorem spell_nil : spell quote [] = "" := String.join_nil

theorem spell_cons (segment : Segment) (segments : List Segment) :
    spell quote (segment :: segments) = segment.spelled quote ++ spell quote segments :=
  String.join_cons

end Segment

/-- What a piece writes: a placeholder stands as it is, and so does a prepared fragment. -/
def Piece.segment : Piece → Segment
  | text s => .verbatim s
  | name n => .name n
  | param _ => .verbatim "?"
  | fragment sql _ => .verbatim sql

/-- The segments of an element that the dialect does not render by itself. -/
def Element.segments : Element → List Segment
  | piece p => [p.segment]
  | expression e => e.pieces.map Piece.segment

/-- The texts and names of a rendering, up to the point where it fails. -/
def Rendering.segments (r : Rendering) : List Segment := r.elements.flatMap Element.segments

/-! ## Writing segments -/

namespace Statement

/-- A piece appends its segment to the text. -/
theorem sql_add (d : Dialect) (s : Statement) (p : Piece) :
    (s.add d p).sql = s.sql ++ p.segment.spelled d.quoteName := by
  cases p with
  | text t => rfl
  | name n => rfl
  | param p => rfl
  | fragment t ps => rfl

/-- Pieces append their segments from the first to the last. -/
theorem sql_write (d : Dialect) (s : Statement) (ps : List Piece) :
    (s.write d ps).sql = s.sql ++ Segment.spell d.quoteName (ps.map Piece.segment) := by
  induction ps generalizing s with
  | nil =>
    rw [List.map_nil, Segment.spell_nil, String.append_empty]
    rfl
  | cons p ps ih =>
    rw [write_cons, ih, sql_add, List.map_cons, Segment.spell_cons, String.append_assoc]

end Statement

section spelled

variable {d : Dialect} (hd : ∀ e, d.render? e = none)
include hd

theorem Rendering.map_segment_pieces (r : Rendering) :
    (r.pieces d).map Piece.segment = r.segments := by
  have helement : ∀ e : Element, (e.pieces d).map Piece.segment = e.segments := by
    intro e
    cases e with
    | piece p => rfl
    | expression e =>
      show ((d.render? e).getD e.pieces).map Piece.segment = _
      -- the dialect leaves the expression to its own pieces
      rw [hd]
      rfl
  unfold pieces segments
  rw [List.map_flatMap, funext helement]

/-- A rendering appends its segments, spelled by the dialect, and its parameters, whether it
    fails in the end or not. -/
theorem Rendering.writeTo_eq_spelled (s : Statement) (r : Rendering) :
    r.writeTo d s = ⟨s.sql ++ Segment.spell d.quoteName r.segments,
      s.params ++ r.elements.flatMap Element.params⟩ := by
  apply Statement.ext
  · show (s.write d (r.pieces d)).sql = _
    rw [Statement.sql_write, r.map_segment_pieces hd]
  · show (s.write d (r.pieces d)).params = _
    rw [Statement.params_write, r.flatMap_params_pieces hd]

/-- The program that builds a rendering appends these too, and ends as the rendering does. -/
theorem Builds.runOn_eq_spelled {b : Building Unit} {r : Rendering} (h : Builds d b r)
    (s : Statement) :
    b.runOn s = (r.outcome, ⟨s.sql ++ Segment.spell d.quoteName r.segments,
      s.params ++ r.elements.flatMap Element.params⟩) := by
  rw [h s, r.writeTo_eq_spelled hd]

/-- The statement of a rendering is its spelled segments with its bindings. -/
theorem Rendering.statement_eq_spelled (r : Rendering) :
    r.statement d =
      r.bindings.map fun ps => ⟨Segment.spell d.quoteName r.segments, ps⟩ := by
  unfold statement bindings
  cases r.failure with
  | some e => rfl
  | none =>
    dsimp only
    rw [r.writeTo_eq_spelled hd]
    -- a statement of its own starts from nothing
    show Except.ok (Statement.mk ("" ++ _) ([] ++ _)) = _
    rw [String.empty_append, List.nil_append]
    rfl

/-- A fragment that is rendered with bindings at hand keeps these and adds its own parameters,
    also those before an error. -/
theorem Rendering.fragment_eq_spelled (bindings : List Param) (r : Rendering) :
    r.fragment d bindings =
      (r.bindings.map fun _ => Segment.spell d.quoteName r.segments,
        bindings ++ r.elements.flatMap Element.params) := by
  unfold fragment Rendering.bindings
  rw [r.writeTo_eq_spelled hd]
  -- the parameters are kept in both cases, the text only without an error
  cases r.failure with
  | some e => rfl
  | none =>
    dsimp only
    rw [String.empty_append]
    rfl

end spelled

/-! ## Queries -/

/-- Whatever has been written before, building a query appends the segments of the query's
    rendering, in the spelling of the dialect, and parameters that the dialect has no part in, and
    ends as the rendering does, with or without an error. The statement that it builds from nothing
    is that of the rendering: for any two of the shipped dialects or none, the query fails on the
    same error or binds the same parameters. The statements for PostgreSQL and for SQLite are the
    same. -/
theorem Query.statement_eq_spelled_segments (q : Query) :
    (∀ db s, (q.build (.ofDatabase db)).runOn s = (q.rendering.outcome,
        ⟨s.sql ++ Segment.spell (Dialect.ofDatabase db).quoteName q.rendering.segments,
          s.params ++ q.rendering.elements.flatMap Element.params⟩)) ∧
      (∀ db, (q.build (.ofDatabase db)).statement = q.rendering.statement (.ofDatabase db)) ∧
      (∀ db, q.rendering.statement (.ofDatabase db) = q.rendering.bindings.map fun ps =>
        ⟨Segment.spell (Dialect.ofDatabase db).quoteName q.rendering.segments, ps⟩) ∧
      (∀ db db', (q.rendering.statement (.ofDatabase db)).map Statement.params =
        (q.rendering.statement (.ofDatabase db')).map Statement.params) ∧
      q.rendering.statement (.ofDatabase (some .postgres)) =
        q.rendering.statement (.ofDatabase (some .sqlite)) := by
  have hbuilds : ∀ db, Builds (.ofDatabase db) (q.build (.ofDatabase db)) q.rendering :=
    fun db => builds_query _ q
  have hspelled : ∀ db, q.rendering.statement (.ofDatabase db) =
      q.rendering.bindings.map fun ps =>
        ⟨Segment.spell (Dialect.ofDatabase db).quoteName q.rendering.segments, ps⟩ :=
    fun db => q.rendering.statement_eq_spelled (Dialect.render?_ofDatabase db)
  have hparams : ∀ db, (q.rendering.statement (.ofDatabase db)).map Statement.params =
      q.rendering.bindings :=
    fun db => Rendering.map_params_statement (Dialect.render?_ofDatabase db) q.rendering
  refine ⟨?_, fun db => (hbuilds db).statement_eq, hspelled, ?_, ?_⟩
  · intro db s
    exact (hbuilds db).runOn_eq_spelled (Dialect.render?_ofDatabase db) s
  · intro db db'
    rw [hparams db, hparams db']
  · -- both quote names in the same way
    have hquote : (Dialect.ofDatabase (some .postgres)).quoteName =
        (Dialect.ofDatabase (some .sqlite)).quoteName := rfl
    rw [hspelled, hspelled, hquote]

end EntitySql
