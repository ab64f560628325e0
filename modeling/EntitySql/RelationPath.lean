/-! # Relation paths

    A relation path such as `address.country` names a relation of the root
    entity, then a relation of the entity that this one leads to, and so on. A
    column path is a relation path, possibly empty, followed by a column:
    `address.country.name`.

    A path is a text, and its segments are the parts between its dots. Segments
    may be empty. Each relation path has an alias, in which the dots are
    replaced by two underscores, so that it can be the name of a joined table.

    Paths are resolved in order of their number of segments and then of their
    text, so that a path comes after those that it extends.
-/

namespace EntitySql.RelationPath

/-! ## Segments -/

/-- The parts of a path between its dots. -/
def segments (path : String) : List String :=
  (path.toList.splitOn '.').map String.ofList

/-- The number of segments. -/
def depth (path : String) : Nat := (segments path).length

/-- What stands before and after the last dot, if there is a dot. -/
def splitLast? : List Char → Option (List Char × List Char)
  | [] => none
  | c :: cs =>
    match splitLast? cs with
    | some (front, back) => some (c :: front, back)
    | none => if c = '.' then some ([], cs) else none

/-- The path without its last segment, unless that is the only one. -/
def parent? (path : String) : Option String :=
  (splitLast? path.toList).map fun parts => String.ofList parts.1

def lastSegment (path : String) : String :=
  match splitLast? path.toList with
  | some (_, back) => String.ofList back
  | none => path

/-- A column path as its relation path, which may be empty, and its column. -/
def splitColumn (path : String) : String × String := ((parent? path).getD "", lastSegment path)

/-- What stands before each dot, and at last the whole. -/
def cuts : List Char → List (List Char)
  | [] => [[]]
  | c :: cs => (if c = '.' then [[]] else []) ++ (cuts cs).map (c :: ·)

/-- The paths of the first segments of a path, shortest first, leaving out empty texts. -/
def prefixes (path : String) : List String :=
  ((cuts path.toList).filter (!·.isEmpty)).map String.ofList

/-! ## Aliases -/

/-- One character of a path in its alias. -/
def aliasChar (c : Char) : List Char := if c = '.' then ['_', '_'] else [c]

def aliasOf (path : String) : String := String.ofList (path.toList.flatMap aliasChar)

/-- The alias of a column that is selected through a relation. -/
def columnAlias (relationAlias column : String) : String := relationAlias ++ "__" ++ column

/-! ## Order of resolution -/

/-- Whether a path comes before another one. -/
def precedes (p q : String) : Bool :=
  depth p < depth q || (depth p == depth q && p < q)

/-- Puts a path in its place among paths in order, unless it is there already. -/
def insert (p : String) : List String → List String
  | [] => [p]
  | q :: qs => if p = q then q :: qs else if precedes p q then p :: q :: qs else q :: insert p qs

/-- The prefixes of all paths, each once, in the order in which they are resolved. -/
def closure (paths : List String) : List String := (paths.flatMap prefixes).foldr insert []

theorem mem_insert {p q : String} {ps : List String} : q ∈ insert p ps ↔ q = p ∨ q ∈ ps := by
  induction ps with
  | nil => simp [insert]
  | cons r rs ih =>
    simp only [insert]
    split
    · rename_i h; subst h; simp
    · split <;> simp [ih, or_left_comm]

/-- The closure holds exactly the prefixes of the paths. -/
theorem mem_closure {q : String} {paths : List String} :
    q ∈ closure paths ↔ ∃ p ∈ paths, q ∈ prefixes p := by
  have h : ∀ qs : List String, q ∈ qs.foldr insert [] ↔ q ∈ qs := by
    intro qs
    induction qs with
    | nil => simp
    | cons r rs ih => simp [mem_insert, ih]
  simp [closure, h, List.mem_flatMap]

end EntitySql.RelationPath
