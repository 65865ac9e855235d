import Rulebook.Number.Layout

/-!
# Rules

A rule assigns a value to an attribute when its condition holds. The condition is a conjunction of
comparisons, each between a named value and a literal.

Every rule has one canonical text, in English words and symbols. Messages show rules, comparisons
and literals in the same form.
-/

namespace Rulebook

open Number (Binary64 Layout)

/-- A constant: a number, or the text of a choice. -/
inductive Literal where
  | number (value : Binary64)
  | text (value : String)
  deriving DecidableEq

inductive Relation where
  | equal
  | less
  | more
  | moreOrEqual
  | lessOrEqual
  | notEqual
  deriving DecidableEq

/-- The relations that ask for an order; only numbers have one. -/
def Relation.isOrdering : Relation → Bool
  | .less | .more | .moreOrEqual | .lessOrEqual => true
  | .equal | .notEqual => false

def Relation.symbol : Relation → String
  | .equal => "=="
  | .less => "<"
  | .more => ">"
  | .moreOrEqual => ">="
  | .lessOrEqual => "<="
  | .notEqual => "!="

structure Comparison where
  left : String
  relation : Relation
  right : Literal
  deriving DecidableEq

/-- A rule: when every comparison of the condition holds, the target receives the value. -/
structure Rule where
  condition : List Comparison
  target : String
  value : Literal
  deriving DecidableEq

/-! ## Wording -/

/--
The layout of numbers in rules: the fewest digits that read back, never an exponent, and no point on
a whole number. A tie goes up.
-/
def wordedNumbers : Layout :=
  ⟨fun _ => true, fun _ => true, false⟩

def numberText (x : Binary64) : String :=
  if x.isNaN then "NaN"
  else if x.isFinite then String.ofList (wordedNumbers.numeral x).toChars
  else if x.negative then "-inf" else "inf"

/-- The text of a literal; a text stands in quotes, as it is. -/
def Literal.toText : Literal → String
  | .number x => numberText x
  | .text value => "\"" ++ value ++ "\""

def Comparison.toText (comparison : Comparison) : String :=
  comparison.left ++ " " ++ comparison.relation.symbol ++ " " ++ comparison.right.toText

def Rule.toText (rule : Rule) : String :=
  "if " ++ " and ".intercalate (rule.condition.map Comparison.toText) ++ " then " ++ rule.target
    ++ " = " ++ rule.value.toText

end Rulebook
