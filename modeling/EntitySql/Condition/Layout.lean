import EntitySql.Condition

/-! # Layout of condition groups

    A condition group is laid out as a sequence of tokens: its predicates and
    texts with connectives and parentheses between them. Empty members are left
    out. A group inside another one stands in parentheses if it has the other
    connective and more than one member that is not empty; otherwise its members
    stand among those of the outer group. The outermost group has no parentheses.

    A group is rendered token by token.
-/

namespace EntitySql

namespace Condition

/-! ## Tokens -/

/-- The parts of a condition group that has been laid out. -/
inductive Token where
  | predicate (p : Predicate)
  | raw (sql : String)
  | connective (c : Connective)
  | opening
  | closing
  deriving DecidableEq, Repr, Inhabited

mutual

/-- The tokens of a condition as a member of a group with the given connective. -/
def tokensIn (outer : Connective) : Condition → List Token
  | predicate p => [.predicate p]
  | raw sql => [.raw sql]
  | group c members =>
    let parts := memberTokens c members
    let inner := [Token.connective c].intercalate parts
    if c ≠ outer ∧ 1 < parts.length then .opening :: inner ++ [.closing] else inner

/-- The tokens of each member that is not empty. -/
def memberTokens (c : Connective) : List Condition → List (List Token)
  | [] => []
  | m :: ms => if m.isEmpty then memberTokens c ms else m.tokensIn c :: memberTokens c ms

end

theorem memberTokens_eq_map (c : Connective) (ms : List Condition) :
    memberTokens c ms = (ms.filter (!·.isEmpty)).map (tokensIn c) := by
  induction ms with
  | nil => rfl
  | cons m ms ih => cases h : m.isEmpty <;> simp [memberTokens, h, ih]

/-! ## Rendering -/

def Token.rendering : Token → Rendering
  | predicate p => p.rendering
  | raw sql => .text sql
  | connective c => .text (" " ++ c.sql ++ " ")
  | opening => .text "("
  | closing => .text ")"

end Condition

namespace ConditionGroup

/-- The tokens of a group without parentheses around it. -/
def tokens (g : ConditionGroup) : List Condition.Token :=
  [Condition.Token.connective g.connective].intercalate
    (Condition.memberTokens g.connective g.members)

def rendering (g : ConditionGroup) : Rendering :=
  .concat (g.tokens.map Condition.Token.rendering)

@[simp] theorem tokensIn_toCondition (g : ConditionGroup) :
    g.toCondition.tokensIn g.connective = g.tokens := by
  simp [toCondition, Condition.tokensIn, tokens]

end ConditionGroup

end EntitySql
