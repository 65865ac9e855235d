import Rulebook.Session.Evaluation

/-!
# Passes and histories

A pass runs every rule once, in order, each in the session that the rules before it left, also
where one of them could not be evaluated.

A session is answered, its rules are run, and what was derived is forgotten, again and again and in
any order. A step goes on from the session that the one before it left, also where an answer was
refused.
-/

namespace Rulebook

/-! ## Passes -/

/-- Which rules of a pass fired and which could not be evaluated, by their positions. -/
structure Report where
  fired : List Nat
  failed : List Nat
  deriving DecidableEq

namespace Report

def empty : Report :=
  ⟨[], []⟩

/-- The report with one more rule in front that fired. -/
def consFired (position : Nat) (report : Report) : Report :=
  ⟨position :: report.fired, report.failed⟩

/-- The report with one more rule in front that could not be evaluated. -/
def consFailed (position : Nat) (report : Report) : Report :=
  ⟨report.fired, position :: report.failed⟩

end Report

/-- Runs rules of which the first one has the given position. -/
def runFrom (position : Nat) : List Rule → Session → Report × Session
  | [], session => (.empty, session)
  | rule :: rest, session =>
    match rule.evaluate session with
    | .ok true after =>
      let (report, last) := runFrom (position + 1) rest after
      (report.consFired position, last)
    | .ok false after => runFrom (position + 1) rest after
    | .error _ stopped =>
      let (report, last) := runFrom (position + 1) rest stopped
      (report.consFailed position, last)

def runPass (rules : List Rule) (session : Session) : Report × Session :=
  runFrom 0 rules session

/-! ## Histories -/

namespace Session

/-- What can be done with a session. -/
inductive Step where
  | answer (name : String) (value : Literal)
  | run
  | reset
  deriving DecidableEq

/-- The session after one step. -/
def step (session : Session) (schema : Schema) (rules : List Rule) : Step → Session
  | .answer name value => leftAt (takeAnswer schema name value session)
  | .run => (runPass rules session).2
  | .reset => session.reset

theorem step_answer_of_ok {session after : Session} {schema : Schema} {name : String}
    {value : Literal} (h : session.answer schema name value = .ok after) (rules : List Rule) :
    session.step schema rules (.answer name value) = after := by
  rw [step, takeAnswer_eq_answer, h]
  rfl

theorem step_answer_of_error {session : Session} {schema : Schema} {name : String}
    {value : Literal} {fault : Fault} (h : session.answer schema name value = .error fault)
    (rules : List Rule) : session.step schema rules (.answer name value) = session := by
  rw [step, takeAnswer_eq_answer, h]
  rfl

/-- The session after several steps. -/
def follow (session : Session) (schema : Schema) (rules : List Rule) (steps : List Step) :
    Session :=
  steps.foldl (fun before next => before.step schema rules next) session

end Session

end Rulebook
