import Rulebook.Rule.Validity

/-!
# Stored rules

The form in which a compiled rule is kept: texts, numbers and tags only, so that it can be written
as JSON and read again. A stored rule may have been altered outside, so turning it back into a rule
checks every part of it.
-/

namespace Rulebook

open Number (Binary64)

/-- A stored literal: the tag says which of the two payloads is there. -/
structure StoredLiteral where
  kind : String
  number : Option Binary64
  text : Option String
  deriving DecidableEq

/-- A stored comparison: the relation is a tag. -/
structure StoredComparison where
  left : String
  op : String
  value : StoredLiteral
  deriving DecidableEq

structure StoredRule where
  conditions : List StoredComparison
  target : String
  value : StoredLiteral
  deriving DecidableEq

/-! ## Storing -/

def numberTag : String := "number"

def textTag : String := "text"

def Relation.tag : Relation → String
  | .equal => "eq"
  | .less => "lt"
  | .more => "gt"
  | .moreOrEqual => "ge"
  | .lessOrEqual => "le"
  | .notEqual => "ne"

def Literal.toStored : Literal → StoredLiteral
  | .number x => ⟨numberTag, some x, none⟩
  | .text value => ⟨textTag, none, some value⟩

def Comparison.toStored (comparison : Comparison) : StoredComparison :=
  ⟨comparison.left, comparison.relation.tag, comparison.right.toStored⟩

def Rule.toStored (rule : Rule) : StoredRule :=
  ⟨rule.condition.map Comparison.toStored, rule.target, rule.value.toStored⟩

/-! ## Restoring -/

/-- The relation with the given tag. -/
def relationOfTag (tag : String) : Except Fault Relation :=
  if tag = "eq" then .ok .equal
  else if tag = "lt" then .ok .less
  else if tag = "gt" then .ok .more
  else if tag = "ge" then .ok .moreOrEqual
  else if tag = "le" then .ok .lessOrEqual
  else if tag = "ne" then .ok .notEqual
  else .error (.storage (.unknownRelation tag))

/-- A name, which may not be empty. -/
def restoreName (name : String) : Except Fault String :=
  if name.isEmpty then .error (.storage .emptyName) else .ok name

/-- The literal of a stored literal: it has exactly the payload of its tag, and a finite number. -/
def StoredLiteral.toLiteral (stored : StoredLiteral) : Except Fault Literal :=
  if stored.kind = numberTag then
    match stored.number, stored.text with
    | some x, none =>
      if x.isFinite then .ok (.number x) else .error (.storage (.payloadMismatch stored.kind))
    | _, _ => .error (.storage (.payloadMismatch stored.kind))
  else if stored.kind = textTag then
    match stored.number, stored.text with
    | none, some value => .ok (.text value)
    | _, _ => .error (.storage (.payloadMismatch stored.kind))
  else .error (.storage (.unknownLiteral stored.kind))

def StoredComparison.toComparison (stored : StoredComparison) : Except Fault Comparison := do
  let left ← restoreName stored.left
  let relation ← relationOfTag stored.op
  let right ← stored.value.toLiteral
  return ⟨left, relation, right⟩

def StoredRule.toRule (stored : StoredRule) : Except Fault Rule :=
  if stored.conditions.isEmpty then .error (.storage .noConditions)
  else do
    let condition ← stored.conditions.mapM StoredComparison.toComparison
    let target ← restoreName stored.target
    let value ← stored.value.toLiteral
    return ⟨condition, target, value⟩

/-- The rule of a stored rule, ready to run: it is valid as well. -/
def StoredRule.bind (stored : StoredRule) : Except Fault Rule := do
  let rule ← stored.toRule
  rule.validate
  return rule

/-- The rules of stored rules; any one that does not bind is a fault of all. -/
def StoredRule.bindAll (stored : List StoredRule) : Except Fault (List Rule) :=
  stored.mapM StoredRule.bind

end Rulebook
