import Rulebook.Session.Basic

/-!
# Evaluating rules

A comparison is decided by the value that its name has in the session. A name without value decides
it negatively, whatever the relation. Numbers compare as IEEE 754 says; texts are equal or not;
values of different kinds are never equal. A rule works on the session in place; one that cannot be
evaluated leaves it as it was (`Rule.atomic_evaluate`).
-/

namespace Rulebook

open Number (Binary64)

/-- Two numbers are in the relation. "Not a number" differs from everything, itself included. -/
def Relation.ofNumbers (relation : Relation) (x y : Binary64) : Bool :=
  match relation with
  | .equal => x.order? y == some .eq
  | .less => x.order? y == some .lt
  | .more => x.order? y == some .gt
  | .moreOrEqual => x.order? y == some .gt || x.order? y == some .eq
  | .lessOrEqual => x.order? y == some .lt || x.order? y == some .eq
  | .notEqual => x.order? y != some .eq

/-- A value is in the relation to a literal; there is no order to ask for between texts. -/
def Relation.holds (relation : Relation) (value literal : Literal) : Except Fault Bool :=
  match value, literal with
  | .number x, .number y => .ok (relation.ofNumbers x y)
  | .text _, .number _ => .ok (relation == .notEqual)
  | .number _, .text _ =>
    if relation.isOrdering then .error (.evaluation (.orderedText relation literal))
    else .ok (relation == .notEqual)
  | .text x, .text y =>
    match relation with
    | .equal => .ok (x == y)
    | .notEqual => .ok (x != y)
    | .less | .more | .moreOrEqual | .lessOrEqual =>
      .error (.evaluation (.orderedText relation literal))

def Comparison.check (comparison : Comparison) (session : Session) : Except Fault Bool :=
  match session.resolve? comparison.left with
  | some value => comparison.relation.holds value comparison.right
  | none => .ok false

/-- All comparisons hold; the first one that does not decides. -/
def checkAll (session : Session) : List Comparison → Except Fault Bool
  | [] => .ok true
  | comparison :: rest =>
    match comparison.check session with
    | .ok true => checkAll session rest
    | .ok false => .ok false
    | .error fault => .error fault

def Rule.check (rule : Rule) (session : Session) : Except Fault Bool :=
  if rule.condition.isEmpty then .error (.evaluation .noCondition)
  else checkAll session rule.condition

/--
Runs the rule in place: where its condition holds and its target is an attribute of the session, the
target receives the value, and the rule has fired.
-/
def Rule.evaluate (rule : Rule) : Session.Action Bool := do
  if ← MonadExcept.ofExcept (rule.check (← get)) then
    Session.assignAttribute rule.target rule.value
  else
    return false

/-- Whether the rule fires, with the session behind it; a fault where it cannot be evaluated. -/
def Rule.run (rule : Rule) (session : Session) : Except Fault (Bool × Session) :=
  resultOf (rule.evaluate session)

theorem Rule.evaluate_eq (rule : Rule) (session : Session) :
    rule.evaluate session =
      match rule.check session with
      | .error fault => .error fault session
      | .ok false => .ok false session
      | .ok true => Session.assignAttribute rule.target rule.value session := by
  -- With the session read, what is left to do hangs on the check alone.
  have checked : rule.evaluate session =
      (do if ← MonadExcept.ofExcept (rule.check session) then
            Session.assignAttribute rule.target rule.value
          else return false : Session.Action Bool) session := rfl
  rw [checked]
  cases rule.check session with
  | error fault => rfl
  | ok verdict => cases verdict <;> rfl

/-- A rule that cannot be evaluated leaves the session as it was. -/
theorem Rule.atomic_evaluate (rule : Rule) : Atomic rule.evaluate := by
  intro session fault stopped failed
  rw [evaluate_eq] at failed
  split at failed
  · cases failed
    rfl
  · cases failed
  · unfold Session.assignAttribute at failed
    split at failed <;> cases failed

theorem Rule.evaluate_eq_run (rule : Rule) (session : Session) :
    rule.evaluate session =
      match rule.run session with
      | .ok (fired, after) => .ok fired after
      | .error fault => .error fault session := by
  rw [rule.atomic_evaluate.eq_resultOf, run]
  cases resultOf (rule.evaluate session) with
  | ok result => rfl
  | error fault => rfl

theorem Rule.run_eq (rule : Rule) (session : Session) :
    rule.run session =
      match rule.check session with
      | .error fault => .error fault
      | .ok false => .ok (false, session)
      | .ok true =>
        match session.assignAttribute? rule.target rule.value with
        | some after => .ok (true, after)
        | none => .ok (false, session) := by
  rw [run, evaluate_eq]
  cases rule.check session with
  | error fault => rfl
  | ok verdict =>
    cases verdict with
    | false => rfl
    | true =>
      unfold Session.assignAttribute
      dsimp only
      cases session.assignAttribute? rule.target rule.value <;> rfl

end Rulebook
