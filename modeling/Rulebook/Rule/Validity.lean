import Rulebook.Model.Basic

/-!
# Valid rules

A rule has a meaning in every session when it has a condition and asks for an order of numbers only.

It fits the declarations of a model when, besides, the names that it compares are declared, its
target is an attribute, and every literal is a value of the kind declared for the name that it is
compared with or assigned to.
-/

namespace Rulebook

/-! ## Rules on their own -/

def Literal.isText : Literal → Bool
  | .number _ => false
  | .text _ => true

/-- The comparison asks for an order of texts. -/
def Comparison.ordersText (comparison : Comparison) : Bool :=
  comparison.relation.isOrdering && comparison.right.isText

/-- Refuses a rule without meaning; of several comparisons at fault the first one is named. -/
def Rule.validate (rule : Rule) : Except Fault Unit :=
  if rule.condition.isEmpty then .error (.invalid .noCondition)
  else
    match rule.condition.find? Comparison.ordersText with
    | some comparison => .error (.invalid (.orderedText comparison))
    | none => .ok ()

/-! ## Rules among declarations -/

/-- Refuses a literal that is no value of the kind declared for the name. -/
def ValueKind.checkLiteral (name : String) (literal : Literal) : ValueKind → Except Fault Unit
  | .number =>
    match literal with
    | .number _ => .ok ()
    | .text _ => .error (.invalid (.notANumber name literal))
  | .choice values =>
    match literal with
    | .text value =>
      if values.contains value then .ok ()
      else .error (.invalid (.notAChoice literal name values))
    | .number _ => .error (.invalid (.notAChoice literal name values))

def Comparison.checkAgainst (schema : Schema) (comparison : Comparison) : Except Fault Unit :=
  match schema.lookup? comparison.left with
  | some kind => kind.checkLiteral comparison.left comparison.right
  | none => .error (.invalid (.unknownName comparison.left))

/-- Refuses a rule whose assignment does not fit the schema. -/
def Rule.checkTarget (schema : Schema) (rule : Rule) : Except Fault Unit :=
  match schema.attribute? rule.target with
  | some kind => kind.checkLiteral rule.target rule.value
  | none => .error (.invalid (.undeclaredTarget rule.target))

/-- Refuses the first comparison that does not fit the schema. -/
def checkCondition (schema : Schema) : List Comparison → Except Fault Unit
  | [] => .ok ()
  | comparison :: rest => do
    comparison.checkAgainst schema
    checkCondition schema rest

/-- Refuses a rule that is not valid or does not fit the schema. -/
def Rule.checkAgainst (schema : Schema) (rule : Rule) : Except Fault Unit := do
  rule.validate
  checkCondition schema rule.condition
  rule.checkTarget schema

end Rulebook
