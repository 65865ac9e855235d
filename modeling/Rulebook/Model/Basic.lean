import Rulebook.Fault
import Rulebook.Text.Characters

/-!
# Models

A questionnaire model declares attributes, asks questions, and derives values for the attributes
from the answers with rules.

In a valid model names and question texts are not blank, there is an attribute, a choice has at
least two values, and no attribute is declared and no parameter asked for twice.
-/

namespace Rulebook

/-- What values a name can have. -/
inductive ValueKind where
  | number
  /-- One of the listed texts. -/
  | choice (values : List String)
  deriving DecidableEq

/-- A name with the kind of its values. -/
structure Declaration where
  name : String
  kind : ValueKind
  deriving DecidableEq

structure Question where
  text : String
  parameter : String
  kind : ValueKind
  deriving DecidableEq

/-- A model as its author describes it; the rules are sources. -/
structure Model where
  name : String
  attributes : List Declaration
  questions : List Question
  rules : List String
  deriving DecidableEq

def Question.declaration (question : Question) : Declaration :=
  ⟨question.parameter, question.kind⟩

def Model.parameters (model : Model) : List Declaration :=
  model.questions.map Question.declaration

/-! ## Schemas -/

/-- The declared names of a model. -/
structure Schema where
  parameters : List Declaration
  attributes : List Declaration

/-- The kind that a list of declarations gives to a name; the last declaration of a name counts. -/
def kindOf? (declarations : List Declaration) (name : String) : Option ValueKind :=
  (declarations.reverse.find? (·.name == name)).map (·.kind)

theorem kindOf?_eq_none_iff {declarations : List Declaration} {name : String} :
    kindOf? declarations name = none ↔ ∀ declaration ∈ declarations, declaration.name ≠ name := by
  simp [kindOf?]

namespace Schema

def empty : Schema :=
  ⟨[], []⟩

def parameter? (schema : Schema) (name : String) : Option ValueKind :=
  kindOf? schema.parameters name

def attribute? (schema : Schema) (name : String) : Option ValueKind :=
  kindOf? schema.attributes name

/-- The kind of a name; a parameter hides an attribute of the same name. -/
def lookup? (schema : Schema) (name : String) : Option ValueKind :=
  (schema.parameter? name).or (schema.attribute? name)

end Schema

def Model.schema (model : Model) : Schema :=
  ⟨model.parameters, model.attributes⟩

/-! ## Valid models -/

/-- Refuses a declaration with a blank name or with less than two choices. -/
def Declaration.validate (declaration : Declaration) : Except Fault Unit :=
  if Text.isBlankText declaration.name then .error (.model .unnamedDeclaration)
  else
    match declaration.kind with
    | .number => .ok ()
    | .choice values =>
      if values.length ≤ 1 then .error (.model (.tooFewChoices declaration.name)) else .ok ()

/-- Refuses the first attribute that is at fault or has a name that was seen before. -/
def validateAttributes (seen : List String) : List Declaration → Except Fault Unit
  | [] => .ok ()
  | declaration :: rest => do
    declaration.validate
    if seen.contains declaration.name then .error (.model (.duplicateAttribute declaration.name))
    else validateAttributes (declaration.name :: seen) rest

/-- Refuses the first question that is at fault or asks for a parameter that was seen before. -/
def validateQuestions (seen : List String) : List Question → Except Fault Unit
  | [] => .ok ()
  | question :: rest =>
    if Text.isBlankText question.text then .error (.model (.blankQuestion question.parameter))
    else do
      question.declaration.validate
      if seen.contains question.parameter then
        .error (.model (.repeatedParameter question.parameter))
      else validateQuestions (question.parameter :: seen) rest

def Model.validate (model : Model) : Except Fault Unit :=
  if Text.isBlankText model.name then .error (.model .unnamed)
  else if model.attributes.isEmpty then .error (.model .noAttributes)
  else do
    validateAttributes [] model.attributes
    validateQuestions [] model.questions

end Rulebook
