import EntitySql.Predicate
import EntitySql.Text.Keyword

/-! # Condition groups

    A `ConditionGroup` joins conditions by one connective. A condition is a
    predicate, a text of SQL, or a group in turn, so groups form a tree.

    A group without any predicate or text that is not blank, at any depth, is
    *empty*: it demands nothing and nothing of it is written.
-/

namespace EntitySql

/-! ## The tree -/

/-- What joins the members of a group. -/
inductive Connective where
  | and
  | or
  deriving DecidableEq, Repr, Inhabited

namespace Connective

def sql : Connective → String
  | and => "AND"
  | or => "OR"

def flip : Connective → Connective
  | and => or
  | or => and

@[simp] theorem flip_flip (c : Connective) : c.flip.flip = c := by
  cases c <;> rfl

end Connective

/-- A member of a condition group. -/
inductive Condition where
  | predicate (p : Predicate)
  /-- Written as it is -/
  | raw (sql : String)
  | group (connective : Connective) (members : List Condition)
  deriving Repr, Inhabited

/-- Conditions joined by one connective. -/
structure ConditionGroup where
  connective : Connective
  members : List Condition
  deriving Repr, Inhabited

namespace Condition

/-! ## Equality -/

mutual

def decEq : (a b : Condition) → Decidable (a = b)
  | predicate p, predicate q =>
    if h : p = q then isTrue (h ▸ rfl) else isFalse fun e => h (predicate.inj e)
  | raw s, raw t => if h : s = t then isTrue (h ▸ rfl) else isFalse fun e => h (raw.inj e)
  | group c ms, group d ns =>
    if h : c = d then
      match decEqList ms ns with
      | isTrue h' => isTrue (h ▸ h' ▸ rfl)
      | isFalse h' => isFalse fun e => h' (group.inj e).2
    else isFalse fun e => h (group.inj e).1
  | predicate _, raw _ => isFalse nofun
  | predicate _, group _ _ => isFalse nofun
  | raw _, predicate _ => isFalse nofun
  | raw _, group _ _ => isFalse nofun
  | group _ _, predicate _ => isFalse nofun
  | group _ _, raw _ => isFalse nofun

def decEqList : (as bs : List Condition) → Decidable (as = bs)
  | [], [] => isTrue rfl
  | [], _ :: _ => isFalse nofun
  | _ :: _, [] => isFalse nofun
  | a :: as, b :: bs =>
    match decEq a b, decEqList as bs with
    | isTrue h, isTrue h' => isTrue (h ▸ h' ▸ rfl)
    | isFalse h, _ => isFalse fun e => h (List.cons.inj e).1
    | _, isFalse h' => isFalse fun e => h' (List.cons.inj e).2

end

instance : DecidableEq Condition := decEq

mutual

def equals : Condition → Condition → Bool
  | predicate p, predicate q => p.equals q
  | raw s, raw t => s == t
  | group c ms, group d ns => c == d && equalsList ms ns
  | _, _ => false

def equalsList : List Condition → List Condition → Bool
  | [], [] => true
  | a :: as, b :: bs => a.equals b && equalsList as bs
  | _, _ => false

end

/-! ## Empty conditions and predicates -/

mutual

/-- Whether nothing of the condition is written. -/
def isEmpty : Condition → Bool
  | predicate _ => false
  | raw sql => Text.blank sql
  | group _ members => allEmpty members

def allEmpty : List Condition → Bool
  | [] => true
  | c :: cs => c.isEmpty && allEmpty cs

end

mutual

/-- The predicates of a condition, depth first. -/
def predicates : Condition → List Predicate
  | predicate p => [p]
  | raw _ => []
  | group _ members => predicatesOf members

def predicatesOf : List Condition → List Predicate
  | [] => []
  | c :: cs => c.predicates ++ predicatesOf cs

end

mutual

/-- The condition with each predicate replaced; the first error ends it. -/
def mapPredicates (f : Predicate → Except SqlError Predicate) :
    Condition → Except SqlError Condition
  | predicate p => (f p).map predicate
  | raw sql => .ok (raw sql)
  | group c members => (mapMembers f members).map (group c)

def mapMembers (f : Predicate → Except SqlError Predicate) :
    List Condition → Except SqlError (List Condition)
  | [] => .ok []
  | c :: cs => do
    let c' ← c.mapPredicates f
    let cs' ← mapMembers f cs
    return c' :: cs'

end

theorem allEmpty_eq_all (cs : List Condition) : allEmpty cs = cs.all isEmpty := by
  induction cs with
  | nil => rfl
  | cons c cs ih => simp [allEmpty, ih]

theorem predicatesOf_eq_flatMap (cs : List Condition) :
    predicatesOf cs = cs.flatMap predicates := by
  induction cs with
  | nil => rfl
  | cons c cs ih => simp [predicatesOf, ih]

end Condition

/-! ## Groups -/

namespace ConditionGroup

/-- The group as a member of another one. -/
def toCondition (g : ConditionGroup) : Condition := .group g.connective g.members

instance : Coe ConditionGroup Condition := ⟨toCondition⟩

/-- An empty group whose members all have to hold. -/
def and : ConditionGroup := ⟨.and, []⟩

/-- An empty group of which one member has to hold. -/
def or : ConditionGroup := ⟨.or, []⟩

instance : DecidableEq ConditionGroup := fun g h =>
  match decEq g.toCondition h.toCondition with
  | isTrue e => isTrue (by cases g; cases h; cases e; rfl)
  | isFalse e => isFalse fun e' => e (e' ▸ rfl)

/-- Equality of values. -/
def equals (g h : ConditionGroup) : Bool := g.toCondition.equals h.toCondition

def isEmpty (g : ConditionGroup) : Bool := Condition.allEmpty g.members

/-- The number of members, empty ones included. -/
def size (g : ConditionGroup) : Nat := g.members.length

def push (g : ConditionGroup) (c : Condition) : ConditionGroup :=
  { g with members := g.members ++ [c] }

def flip (g : ConditionGroup) : ConditionGroup := { g with connective := g.connective.flip }

/-- A group with this group as its only member. -/
def nestedIn (g : ConditionGroup) (c : Connective) : ConditionGroup := ⟨c, [g.toCondition]⟩

def predicates (g : ConditionGroup) : List Predicate := Condition.predicatesOf g.members

def mapPredicates (f : Predicate → Except SqlError Predicate) (g : ConditionGroup) :
    Except SqlError ConditionGroup :=
  (Condition.mapMembers f g.members).map fun members => ⟨g.connective, members⟩

@[simp] theorem predicates_toCondition (g : ConditionGroup) :
    g.toCondition.predicates = g.predicates := rfl

@[simp] theorem isEmpty_toCondition (g : ConditionGroup) :
    g.toCondition.isEmpty = g.isEmpty := rfl

end ConditionGroup

end EntitySql
