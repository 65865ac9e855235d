import Rulebook.Json.Reader
import Rulebook.Json.Record
import Rulebook.Json.Writer
import Rulebook.Model.Basic

/-!
# The JSON texts of models

A model is a record of `name`, `attributes`, `questions` and `derivation_rules`; the last two may be
missing. A declaration is an object with a `name`, a question one with a `text` and a `param`, and
both say their kind of values in the same object: the `type` is `number`, or it is `choice` and
`values` lists the choices.
-/

namespace Rulebook

open Json (Value Members)
open Number (Numeral)

/-! ## Writing -/

/-- The fields that say a kind of values. -/
def ValueKind.fields : ValueKind → List (String × Value)
  | .number => [("type", .ofText "number")]
  | .choice values =>
    [("type", .ofText "choice"), ("values", .array (values.map Value.ofText))]

def Declaration.toJson (declaration : Declaration) : Value :=
  .ofFields (("name", .ofText declaration.name) :: declaration.kind.fields)

def Question.toJson (question : Question) : Value :=
  .ofFields
    (("text", .ofText question.text) :: ("param", .ofText question.parameter)
      :: question.kind.fields)

def Model.toJson (model : Model) : Value :=
  .ofFields
    [("name", .ofText model.name),
     ("attributes", .array (model.attributes.map Declaration.toJson)),
     ("questions", .array (model.questions.map Question.toJson)),
     ("derivation_rules", .array (model.rules.map Value.ofText))]

def Model.toText (model : Model) : String :=
  model.toJson.toText

/-! ## Reading -/

/-- The kinds of values as a `type` names them. -/
inductive KindTag where
  | number
  | choice

/-- The kind named by a `type`: its name, or its number in the order of the kinds. -/
def KindTag.ofJson? : Value → Option KindTag
  | .string pieces =>
    match Json.textOf? pieces with
    | some name =>
      if name = "number" then some .number else if name = "choice" then some .choice else none
    | none => none
  | .number numeral =>
    if numeral = ⟨false, ['0'], [], none⟩ then some .number
    else if numeral = ⟨false, ['1'], [], none⟩ then some .choice
    else none
  | .null | .bool _ | .array _ | .object _ => none

/-- The kind of values that the members of an object say. Numbers ignore `values`. -/
def ValueKind.ofMembers? (members : Members) : Option ValueKind := do
  let some tag ← members.field? "type" | none
  match ← KindTag.ofJson? tag with
  | .number => return .number
  | .choice =>
    let some values ← members.field? "values" | none
    let values ← values.texts?
    return .choice values

/--
How deep an element of a model may nest, itself included: a text nests at most 127 deep, and an
element stands in a list in the model.
-/
def elementDepth : Nat := 125

/-- The members of a declaration or a question. The members that it does not know are read too. -/
def elementMembers? (value : Value) : Option Members :=
  if value.isSound elementDepth then value.members? else none

/-- The text of a member that has to be there. -/
def requiredText? (members : Members) (key : String) : Option String := do
  let some value ← members.field? key | none
  value.text?

def Declaration.ofJson? (value : Value) : Option Declaration := do
  let members ← elementMembers? value
  let name ← requiredText? members "name"
  let kind ← ValueKind.ofMembers? members
  return ⟨name, kind⟩

def Question.ofJson? (value : Value) : Option Question := do
  let members ← elementMembers? value
  let text ← requiredText? members "text"
  let parameter ← requiredText? members "param"
  let kind ← ValueKind.ofMembers? members
  return ⟨text, parameter, kind⟩

/-- The items of a list, none where the list is missing. -/
def listOf? {α : Type} (read : Value → Option α) : Option Value → Option (List α)
  | none => some []
  | some value => value.items?.bind fun items => items.mapM read

def Model.ofJson? (value : Value) : Option Model := do
  match ← value.fields? ["name", "attributes", "questions", "derivation_rules"] with
  | [some name, some attributes, questions, rules] =>
    let name ← name.text?
    let attributes ← listOf? Declaration.ofJson? (some attributes)
    let questions ← listOf? Question.ofJson? questions
    let rules ← listOf? Value.text? rules
    return ⟨name, attributes, questions, rules⟩
  | _ => none

/-- The valid model of a JSON text. -/
def Model.ofText (text : String) : Except Fault Model :=
  match (Json.read? text).bind Model.ofJson? with
  | some model => do
    model.validate
    return model
  | none => .error (.model .unreadable)

end Rulebook
