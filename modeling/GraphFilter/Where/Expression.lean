import GraphFilter.Where.Predicate

/-!
# Boolean expressions

The where text of a query as a tree.  A chain is a row of terms with joiners
between them, as it stands in the text: the joiners bind by their own precedence,
and only parentheses make a unit.
-/

namespace GraphFilter

/-! ## Chains -/

/-- Words that join terms. -/
inductive Joiner where
  | and
  | xor
  | or
deriving DecidableEq

/-- The text of a joiner. -/
def Joiner.keyword : Joiner → String
  | and => "AND"
  | xor => "XOR"
  | or => "OR"

/-- A term: an atom, or a chain in parentheses.  The joiner of each term of a chain
stands in front of it; that of the first term is not written. -/
inductive Term (α : Type) where
  | atom (content : α)
  | paren (terms : List (Joiner × Term α))
deriving Inhabited

/-- Terms, each with the joiner in front of it. -/
abbrev Chain (α : Type) := List (Joiner × Term α)

namespace Chain

variable {α : Type}

/-- Set the joiner in front of a chain. -/
def withJoiner (j : Joiner) : Chain α → Chain α
  | [] => []
  | (_, t) :: rest => (j, t) :: rest

/-- A chain in parentheses as a single term, nothing if it has no terms. -/
def wrap (j : Joiner) : Chain α → Chain α
  | [] => []
  | terms => [(j, .paren terms)]

@[simp]
theorem withJoiner_eq_nil {j : Joiner} {c : Chain α} : withJoiner j c = [] ↔ c = [] := by
  cases c <;> simp [withJoiner]

@[simp]
theorem wrap_eq_nil {j : Joiner} {c : Chain α} : wrap j c = [] ↔ c = [] := by
  cases c <;> simp [wrap]

/-! ## Text -/

mutual

/-- The text of a term. -/
def renderTerm (text : α → String) : Term α → String
  | .atom a => text a
  | .paren terms => "(" ++ render text terms ++ ")"

/-- The text of a chain. -/
def render (text : α → String) : List (Joiner × Term α) → String
  | [] => ""
  | (_, t) :: rest => renderTerm text t ++ renderRest text rest

/-- The text of the terms behind the first one. -/
def renderRest (text : α → String) : List (Joiner × Term α) → String
  | [] => ""
  | (j, t) :: rest => " " ++ j.keyword ++ " " ++ renderTerm text t ++ renderRest text rest

end

end Chain

/-! ## From trees of conditions -/

namespace Tree

variable {α : Type}

/-- The joiner in front of a child of a group.  Children of an alternative exclude
each other. -/
def joiner : Combinator → Bool → Joiner
  | .and, _ => .and
  | .or, true => .or
  | .or, false => .xor

/-- The leaves at the top of a tree. -/
def topTerms : List (Condition α) → Chain α
  | [] => []
  | .leaf a :: rest => (.and, .atom a) :: topTerms rest
  | .group _ _ :: rest => topTerms rest

mutual

/-- The children of a condition that is a group of the combinator. -/
def conditionTerms : Combinator → Condition α → Chain α
  | _, .leaf _ => []
  | c, .group d children => if d = c then childTerms c true children else []

/-- The children of all groups of one combinator at the top of a tree. -/
def groupTerms : Combinator → List (Condition α) → Chain α
  | _, [] => []
  | c, condition :: rest => conditionTerms c condition ++ groupTerms c rest

/-- The children of a group; the flag marks the one in front.  A child without terms
leaves no trace, but the one behind it is not the first one. -/
def childTerms : Combinator → Bool → List (List (Condition α)) → Chain α
  | _, _, [] => []
  | c, first, t :: rest =>
    let terms :=
      topTerms t ++ Chain.wrap .and (groupTerms .and t) ++ Chain.wrap .or (groupTerms .or t)
    Chain.withJoiner (joiner c first) terms ++ childTerms c false rest

end

/-- The expression of a tree: its leaves, then its conjunctive group behind `AND`,
then its alternative group behind `OR`. -/
def toChain (t : Tree α) : Chain α :=
  topTerms t ++ Chain.wrap .and (groupTerms .and t) ++ Chain.wrap .or (groupTerms .or t)

/-- A child adds its own expression. -/
@[simp]
theorem childTerms_cons (c : Combinator) (first : Bool) (t : Tree α) (rest : List (Tree α)) :
    childTerms c first (t :: rest) =
      Chain.withJoiner (joiner c first) (toChain t) ++ childTerms c false rest := by
  simp [childTerms, toChain]

end Tree

end GraphFilter
