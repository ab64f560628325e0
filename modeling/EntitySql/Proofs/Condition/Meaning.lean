import EntitySql.Condition.Layout
import Mathlib.Data.List.Nodup

/-! # The meaning of condition groups

    A valuation gives a truth value to each *atom* of a condition tree: to each
    predicate and to each text that is not blank. Under a valuation a group
    whose members all have to hold is true if they do, and a group of
    alternatives is true if one of them is. Members of which nothing is written
    are ignored.

    What a tree means depends on its atoms alone (`holds_congr`), and if these
    all have one truth value the tree has it too (`holds_const`).
-/

namespace EntitySql

/-! ## Atoms -/

/-- What is given a truth value. -/
inductive Atom where
  | predicate (p : Predicate)
  | raw (sql : String)
  deriving DecidableEq, Repr, Inhabited

def Atom.predicate? : Atom → Option Predicate
  | predicate p => some p
  | raw _ => none

/-- A truth value for each atom. -/
abbrev Valuation := Atom → Bool

namespace Condition

/-- To prove something of all conditions, one may assume it of the members of a group. -/
@[elab_as_elim]
theorem induct {motive : Condition → Prop} (predicate : ∀ p, motive (.predicate p))
    (raw : ∀ sql, motive (.raw sql))
    (group : ∀ c members, (∀ m ∈ members, motive m) → motive (.group c members))
    (c : Condition) : motive c := by
  refine @Condition.rec motive (fun members => ∀ m ∈ members, motive m) predicate raw group
    (fun m hm => ?_) (fun head tail ihHead ihTail m hm => ?_) c
  · exact absurd hm List.not_mem_nil
  · rcases List.mem_cons.1 hm with rfl | hm
    · exact ihHead
    · exact ihTail m hm

mutual

/-- The atoms of a condition, depth first. -/
def atoms : Condition → List Atom
  | predicate p => [.predicate p]
  | raw sql => if Text.blank sql then [] else [.raw sql]
  | group _ members => atomsOf members

def atomsOf : List Condition → List Atom
  | [] => []
  | c :: cs => c.atoms ++ atomsOf cs

end

/-! ## Truth -/

mutual

def holds (v : Valuation) : Condition → Bool
  | predicate p => v (.predicate p)
  | raw sql => v (.raw sql)
  | group .and members => allHold v members
  | group .or members => anyHolds v members

/-- Whether all conditions are true, apart from empty ones. -/
def allHold (v : Valuation) : List Condition → Bool
  | [] => true
  | c :: cs => (c.isEmpty || c.holds v) && allHold v cs

/-- Whether some condition is true and not empty. -/
def anyHolds (v : Valuation) : List Condition → Bool
  | [] => false
  | c :: cs => (!c.isEmpty && c.holds v) || anyHolds v cs

end

/-! ## Written members -/

/-- The conditions of which something is written. -/
def written (cs : List Condition) : List Condition := cs.filter (!·.isEmpty)

theorem mem_written {c : Condition} {cs : List Condition} :
    c ∈ written cs ↔ c ∈ cs ∧ c.isEmpty = false := by
  simp [written]

@[simp] theorem written_nil : written [] = [] := rfl

theorem written_cons (c : Condition) (cs : List Condition) :
    written (c :: cs) = if c.isEmpty then written cs else c :: written cs := by
  cases h : c.isEmpty <;> simp [written, h]

theorem isEmpty_group (c : Connective) (ms : List Condition) :
    (group c ms).isEmpty = (written ms).isEmpty := by
  rw [isEmpty, allEmpty_eq_all]
  induction ms with
  | nil => rfl
  | cons m ms ih => cases h : m.isEmpty <;> simp [written_cons, h, ih]

/-- A group of which something is written has a written member. -/
theorem written_ne_nil {c : Connective} {ms : List Condition}
    (h : (group c ms).isEmpty = false) : written ms ≠ [] := by
  intro hnil
  rw [isEmpty_group, hnil] at h
  exact Bool.noConfusion h

theorem memberTokens_eq_written (c : Connective) (ms : List Condition) :
    memberTokens c ms = (written ms).map (tokensIn c) :=
  memberTokens_eq_map c ms

theorem holds_and (v : Valuation) (ms : List Condition) :
    (group .and ms).holds v = (written ms).all (holds v) := by
  rw [holds]
  induction ms with
  | nil => rfl
  | cons m ms ih => cases h : m.isEmpty <;> simp [allHold, written_cons, h, ih]

theorem holds_or (v : Valuation) (ms : List Condition) :
    (group .or ms).holds v = (written ms).any (holds v) := by
  rw [holds]
  induction ms with
  | nil => rfl
  | cons m ms ih => cases h : m.isEmpty <;> simp [anyHolds, written_cons, h, ih]

/-! ## Meaning and atoms -/

theorem atomsOf_eq_flatMap (cs : List Condition) : atomsOf cs = cs.flatMap atoms := by
  induction cs with
  | nil => rfl
  | cons c cs ih => simp [atomsOf, ih]

/-- An empty condition has no atoms, and it is the only kind that has none. -/
theorem atoms_eq_nil_iff {c : Condition} : c.atoms = [] ↔ c.isEmpty = true := by
  induction c using induct with
  | predicate p => simp [atoms, isEmpty]
  | raw sql => simp [atoms, isEmpty]
  | group c ms ih =>
    rw [atoms, atomsOf_eq_flatMap, isEmpty, allEmpty_eq_all, List.flatMap_eq_nil_iff,
      List.all_eq_true]
    exact forall₂_congr ih

theorem atoms_group (c : Connective) (ms : List Condition) :
    (group c ms).atoms = (written ms).flatMap atoms := by
  rw [atoms, atomsOf_eq_flatMap]
  induction ms with
  | nil => rfl
  | cons m ms ih =>
    cases h : m.isEmpty with
    | true => simp [written_cons, h, atoms_eq_nil_iff.2 h, ih]
    | false => simp [written_cons, h, ih]

/-- The atoms of a written member are atoms of its group. -/
theorem mem_atoms_group {c : Connective} {ms : List Condition} {m : Condition} {a : Atom}
    (hm : m ∈ written ms) (ha : a ∈ m.atoms) : a ∈ (group c ms).atoms := by
  rw [atoms_group]
  exact List.mem_flatMap.2 ⟨m, hm, ha⟩

/-- To prove something of the conditions of which something is written, one may assume it of
    the written members of a group. -/
@[elab_as_elim]
theorem inductWritten {motive : (c : Condition) → c.isEmpty = false → Prop}
    (predicate : ∀ p, motive (.predicate p) rfl)
    (raw : ∀ sql (hne : Text.blank sql = false), motive (.raw sql) hne)
    (group : ∀ c ms (hne : (group c ms).isEmpty = false),
      (∀ m (hm : m ∈ written ms), motive m (mem_written.1 hm).2) → motive (.group c ms) hne)
    (c : Condition) (hne : c.isEmpty = false) : motive c hne := by
  induction c using induct with
  | predicate p => exact predicate p
  | raw sql => exact raw sql hne
  | group c ms ih => exact group c ms hne fun m hm => ih m (mem_written.1 hm).1 _

/-- What a condition means depends on its atoms alone. -/
theorem holds_congr {v w : Valuation} {c : Condition} (hne : c.isEmpty = false)
    (h : ∀ a ∈ c.atoms, v a = w a) : c.holds v = c.holds w := by
  induction c, hne using inductWritten with
  | predicate p => exact h _ (by simp [atoms])
  | raw sql hne => exact h _ (by simp [atoms, hne])
  | group c ms hne ih =>
    -- the members that are not written have no say
    have hmem : ∀ m ∈ written ms, m.holds v = m.holds w := fun m hm =>
      ih m hm fun a ha => h a (mem_atoms_group hm ha)
    cases c with
    | and =>
      rw [holds_and, holds_and, Bool.eq_iff_iff, List.all_eq_true, List.all_eq_true]
      exact forall₂_congr fun m hm => by rw [hmem m hm]
    | or =>
      rw [holds_or, holds_or, Bool.eq_iff_iff, List.any_eq_true, List.any_eq_true]
      exact exists_congr fun m => and_congr_right fun hm => by rw [hmem m hm]

/-- If all atoms of a condition have one truth value, so has the condition. -/
theorem holds_const {v : Valuation} {b : Bool} {c : Condition} (hne : c.isEmpty = false)
    (h : ∀ a ∈ c.atoms, v a = b) : c.holds v = b := by
  induction c, hne using inductWritten with
  | predicate p => exact h _ (by simp [atoms])
  | raw sql hne => exact h _ (by simp [atoms, hne])
  | group c ms hne ih =>
    have hmem : ∀ m ∈ written ms, m.holds v = b := fun m hm =>
      ih m hm fun a ha => h a (mem_atoms_group hm ha)
    -- What is needed of the group being written is that there is a member at all.
    obtain ⟨m, hm⟩ := List.exists_mem_of_ne_nil _ (written_ne_nil hne)
    cases c with
    | and => rw [holds_and]; cases b <;> grind
    | or => rw [holds_or]; cases b <;> grind

/-! ## Atoms of the text -/

/-- The atom that a token stands for, if it stands for one. -/
def Token.atom? : Token → Option Atom
  | predicate p => some (.predicate p)
  | raw sql => some (.raw sql)
  | _ => none

theorem tokensIn_group (outer c : Connective) (ms : List Condition) :
    (group c ms).tokensIn outer =
      if c ≠ outer ∧ 1 < (written ms).length
      then .opening :: [Token.connective c].intercalate ((written ms).map (tokensIn c)) ++
        [.closing]
      else [Token.connective c].intercalate ((written ms).map (tokensIn c)) := by
  simp only [tokensIn, memberTokens_eq_written, List.length_map]

theorem filterMap_atom?_intercalate (c : Connective) (tss : List (List Token)) :
    ([Token.connective c].intercalate tss).filterMap Token.atom? =
      tss.flatMap (List.filterMap Token.atom?) := by
  induction tss with
  | nil => rfl
  | cons ts tss ih =>
    -- the connective between two members is no atom
    cases tss with
    | nil => simp
    | cons us tss =>
      rw [List.intercalate_cons_cons, List.append_assoc, List.filterMap_append,
        List.singleton_append, List.filterMap_cons_none rfl, ih]
      rfl

/-- The text of a condition holds the atoms of the tree, in order. -/
theorem filterMap_atom?_tokensIn {c : Condition} (hne : c.isEmpty = false) (outer : Connective) :
    (c.tokensIn outer).filterMap Token.atom? = c.atoms := by
  induction c, hne using inductWritten generalizing outer with
  | predicate p => rfl
  | raw sql hne => simp [tokensIn, atoms, Token.atom?, hne]
  | group c ms hne ih =>
    have hinner : ([Token.connective c].intercalate ((written ms).map (tokensIn c))).filterMap
        Token.atom? = (group c ms).atoms := by
      rw [filterMap_atom?_intercalate, List.flatMap_map, atoms_group]
      exact List.flatMap_congr fun m hm => ih m hm c
    rw [tokensIn_group]
    -- parentheses are no atoms either
    split
    · rw [List.cons_append, List.filterMap_cons_none rfl, List.filterMap_append, hinner]
      exact List.append_nil _
    · exact hinner

/-- The predicates among the atoms are the predicates of the tree, in order. -/
theorem filterMap_predicate?_atoms (c : Condition) :
    c.atoms.filterMap Atom.predicate? = c.predicates := by
  induction c using induct with
  | predicate p => rfl
  | raw sql =>
    rw [atoms]
    split <;> rfl
  | group c ms ih =>
    rw [atoms, predicates, atomsOf_eq_flatMap, predicatesOf_eq_flatMap, List.filterMap_flatMap]
    exact List.flatMap_congr ih

theorem mem_predicates_of_mem_atoms {c : Condition} {p : Predicate}
    (h : Atom.predicate p ∈ c.atoms) : p ∈ c.predicates := by
  rw [← filterMap_predicate?_atoms]
  exact List.mem_filterMap.2 ⟨.predicate p, h, rfl⟩

/-- A condition of which nothing is written has no predicates. -/
theorem predicates_of_isEmpty {c : Condition} (h : c.isEmpty = true) : c.predicates = [] := by
  rw [← filterMap_predicate?_atoms, atoms_eq_nil_iff.2 h]
  rfl

end Condition

namespace ConditionGroup

def atoms (g : ConditionGroup) : List Atom := g.toCondition.atoms

def holds (v : Valuation) (g : ConditionGroup) : Bool := g.toCondition.holds v

/-- The text of a group holds the atoms of the tree, in order. -/
theorem filterMap_atom?_tokens (g : ConditionGroup) :
    g.tokens.filterMap Condition.Token.atom? = g.atoms := by
  have hatoms : g.atoms = (Condition.written g.members).flatMap Condition.atoms :=
    Condition.atoms_group g.connective g.members
  rw [tokens, Condition.memberTokens_eq_written, Condition.filterMap_atom?_intercalate,
    List.flatMap_map, hatoms]
  exact List.flatMap_congr fun m hm =>
    Condition.filterMap_atom?_tokensIn (Condition.mem_written.1 hm).2 g.connective

/-- The atom of a token is an atom of the tree. -/
theorem mem_atoms_of_mem_tokens {g : ConditionGroup} {t : Condition.Token} {a : Atom}
    (ht : t ∈ g.tokens) (ha : t.atom? = some a) : a ∈ g.atoms := by
  rw [← filterMap_atom?_tokens]
  exact List.mem_filterMap.2 ⟨t, ht, ha⟩

end ConditionGroup

end EntitySql
