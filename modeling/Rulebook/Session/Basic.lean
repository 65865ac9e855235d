import Rulebook.Fault
import Rulebook.Model.Basic
import Rulebook.Session.Bindings

/-!
# Sessions

A session goes through a questionnaire: answers bind parameters, and rules derive attributes. Both
work on the session in place, and an answer that is refused leaves it as it was
(`Session.atomic_takeAnswer`).
-/

namespace Rulebook

/-- The values that one session works with. -/
structure Session where
  parameters : Bindings
  attributes : Bindings
  deriving DecidableEq

namespace Session

/-- A step that works on a session in place. -/
abbrev Action := EStateM Fault Session

def empty : Session :=
  ⟨[], []⟩

/-- A session at its start: every parameter and attribute of the model is declared, none is set. -/
def ofModel (model : Model) : Session where
  parameters := (model.parameters.map (·.name)).foldl Bindings.declare []
  attributes := (model.attributes.map (·.name)).foldl Bindings.declare []

def declareParameter (session : Session) (name : String) : Session :=
  ⟨session.parameters.declare name, session.attributes⟩

def declareAttribute (session : Session) (name : String) : Session :=
  ⟨session.parameters, session.attributes.declare name⟩

/-- The value of a parameter that was answered. -/
def parameter? (session : Session) (name : String) : Option Literal :=
  session.parameters.value? name

/-- The value of an attribute that was derived. -/
def attribute? (session : Session) (name : String) : Option Literal :=
  session.attributes.value? name

/--
The value that a name has in a condition. A declared parameter hides an attribute of its name even
while it has no value.
-/
def resolve? (session : Session) (name : String) : Option Literal :=
  match session.parameters.get? name with
  | some value => value
  | none => session.attribute? name

/-- Sets a parameter unchecked. -/
def setParameter (session : Session) (name : String) (value : Literal) : Session :=
  ⟨session.parameters.insert name value, session.attributes⟩

/-- Sets an attribute that is declared; `none` for one that is not. -/
def assignAttribute? (session : Session) (name : String) (value : Literal) : Option Session :=
  if session.attributes.has name then
    some ⟨session.parameters, session.attributes.assign name value⟩
  else none

/-- Sets an attribute in place if it is declared, and says whether it is. -/
def assignAttribute (name : String) (value : Literal) : Action Bool := fun session =>
  match session.assignAttribute? name value with
  | some after => .ok true after
  | none => .ok false session

/-- Forgets what rules derived. -/
def reset (session : Session) : Session :=
  ⟨session.parameters, session.attributes.clear⟩

/-- The literal is an answer to a question of the given kind: a finite number, or a listed text. -/
def accepts : ValueKind → Literal → Bool
  | .number, .number x => x.isFinite
  | .choice values, .text value => values.contains value
  | .number, .text _ => false
  | .choice _, .number _ => false

/-- Takes an answer after checking it against the declaration of its parameter. -/
def takeAnswer (schema : Schema) (name : String) (value : Literal) : Action Unit := do
  match schema.parameter? name with
  | none => throw (.answer (.unknownParameter name))
  | some kind =>
    unless accepts kind value do
      throw (.answer (.unfit value name))
    modify (·.setParameter name value)

/-- The session behind an answer that is taken; a fault for one that is refused. -/
def answer (session : Session) (schema : Schema) (name : String) (value : Literal) :
    Except Fault Session :=
  (resultOf (takeAnswer schema name value session)).map (·.2)

theorem takeAnswer_eq (schema : Schema) (name : String) (value : Literal) (session : Session) :
    takeAnswer schema name value session =
      match schema.parameter? name with
      | none => .error (.answer (.unknownParameter name)) session
      | some kind =>
        if accepts kind value then .ok () (session.setParameter name value)
        else .error (.answer (.unfit value name)) session := by
  unfold takeAnswer
  cases schema.parameter? name with
  | none => rfl
  | some kind =>
    dsimp only
    cases accepts kind value <;> rfl

/-- An answer that is refused leaves the session as it was. -/
theorem atomic_takeAnswer (schema : Schema) (name : String) (value : Literal) :
    Atomic (takeAnswer schema name value) := by
  intro session fault stopped refused
  rw [takeAnswer_eq] at refused
  split at refused
  · cases refused
    rfl
  · split at refused
    · cases refused
    · cases refused
      rfl

theorem takeAnswer_eq_answer (schema : Schema) (name : String) (value : Literal)
    (session : Session) :
    takeAnswer schema name value session =
      match session.answer schema name value with
      | .ok after => .ok () after
      | .error fault => .error fault session := by
  rw [(atomic_takeAnswer schema name value).eq_resultOf, answer]
  cases resultOf (takeAnswer schema name value session) with
  | ok result => rfl
  | error fault => rfl

theorem answer_eq (session : Session) (schema : Schema) (name : String) (value : Literal) :
    session.answer schema name value =
      match schema.parameter? name with
      | none => .error (.answer (.unknownParameter name))
      | some kind =>
        if accepts kind value then .ok (session.setParameter name value)
        else .error (.answer (.unfit value name)) := by
  rw [answer, takeAnswer_eq]
  cases schema.parameter? name with
  | none => rfl
  | some kind =>
    dsimp only
    cases accepts kind value <;> rfl

end Session

end Rulebook
