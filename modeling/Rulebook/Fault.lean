import Rulebook.Lexis.Token
import Rulebook.Rule.Basic
import Rulebook.Text.Quoted

/-!
# Faults

Everything that can be wrong with a rule, a stored rule, a model, an answer or an evaluation, each
with what its message needs. The wording is in `Fault.message`.

A step works on a state, a parser or a session, and leaves one behind also where it fails. It is
`Atomic` if the one that it leaves where it fails is the one that it found.
-/

namespace Rulebook

open Lexis (LexicalError Token)

/-- What the grammar asks for at a place. -/
inductive Expected where
  | ifWord
  | identifier
  | comparison
  | literal
  | thenOrAnd
  | assignment
  | endOfRule
  deriving DecidableEq

def Expected.wording : Expected → String
  | .ifWord => "'if'"
  | .identifier => "identifier"
  | .comparison => "comparison operator"
  | .literal => "number or value"
  | .thenOrAnd => "'then' or 'and'"
  | .assignment => "'='"
  | .endOfRule => "end of rule"

/-- Why a rule that the grammar accepts has no meaning. -/
inductive InvalidCause where
  | noCondition
  /-- The comparison asks for an order of texts. -/
  | orderedText (comparison : Comparison)
  | unknownName (name : String)
  | undeclaredTarget (name : String)
  | notAChoice (literal : Literal) (name : String) (choices : List String)
  /-- A numeric name meets a text. -/
  | notANumber (name : String) (literal : Literal)
  deriving DecidableEq

/-- Why a stored rule does not give a rule. -/
inductive StorageCause where
  /-- The text is not the JSON text of a stored rule. -/
  | unreadable
  | noConditions
  | emptyName
  | unknownRelation (tag : String)
  /-- The payload of a literal is not the one that its tag announces. -/
  | payloadMismatch (tag : String)
  | unknownLiteral (tag : String)
  deriving DecidableEq

inductive EvaluationCause where
  | noCondition
  | orderedText (relation : Relation) (literal : Literal)
  deriving DecidableEq

inductive ModelCause where
  | unreadable
  | unnamed
  | noAttributes
  | unnamedDeclaration
  | tooFewChoices (name : String)
  | duplicateAttribute (name : String)
  | blankQuestion (parameter : String)
  | repeatedParameter (parameter : String)
  deriving DecidableEq

inductive AnswerCause where
  | unknownParameter (name : String)
  | unfit (value : Literal) (name : String)
  deriving DecidableEq

/-- What is wrong, with its cause. -/
inductive Fault where
  /-- The source does not split into tokens, or a number is too large. -/
  | lexical (error : LexicalError)
  /-- A token stands where the grammar asks for something else. -/
  | grammar (expected : Expected) (found : Token)
  | invalid (cause : InvalidCause)
  | storage (cause : StorageCause)
  | evaluation (cause : EvaluationCause)
  | model (cause : ModelCause)
  | answer (cause : AnswerCause)
  deriving DecidableEq

/-- The faults for which compiling refuses a source. -/
def Fault.isCompileFault : Fault → Bool
  | .lexical _ | .grammar _ _ | .invalid _ => true
  | .storage _ | .evaluation _ | .model _ | .answer _ => false

/-! ## Wording -/

def InvalidCause.message : InvalidCause → String
  | .noCondition => "rule has no condition"
  | .orderedText comparison =>
    "ordering comparison '" ++ comparison.toText ++ "' on a text value"
  | .unknownName name => "unknown parameter or attribute '" ++ name ++ "'"
  | .undeclaredTarget name => "'" ++ name ++ "' is not a declared attribute"
  | .notAChoice literal name choices =>
    literal.toText ++ " is not one of the choices of '" ++ name ++ "': "
      ++ Text.quotedList choices
  | .notANumber name literal =>
    "'" ++ name ++ "' is numeric but compared with " ++ literal.toText

def StorageCause.message : StorageCause → String
  | .unreadable => "not the text of a stored rule"
  | .noConditions => "stored rule has no conditions"
  | .emptyName => "empty identifier"
  | .unknownRelation tag => "unknown operator tag '" ++ tag ++ "'"
  | .payloadMismatch tag => "literal payload does not match tag '" ++ tag ++ "'"
  | .unknownLiteral tag => "unknown literal tag '" ++ tag ++ "'"

def EvaluationCause.message : EvaluationCause → String
  | .noCondition => "rule has no condition"
  | .orderedText relation literal =>
    "ordering comparison '" ++ relation.symbol ++ "' on text value " ++ literal.toText

def ModelCause.message : ModelCause → String
  | .unreadable => "not the text of a model"
  | .unnamed => "model name is empty"
  | .noAttributes => "model must declare at least one attribute"
  | .unnamedDeclaration => "declaration has an empty name"
  | .tooFewChoices name => "choice '" ++ name ++ "' needs at least two values"
  | .duplicateAttribute name => "duplicate attribute '" ++ name ++ "'"
  | .blankQuestion parameter => "question for '" ++ parameter ++ "' has no text"
  | .repeatedParameter parameter =>
    "parameter '" ++ parameter ++ "' is asked by more than one question"

def AnswerCause.message : AnswerCause → String
  | .unknownParameter name => "unknown parameter '" ++ name ++ "'"
  | .unfit value name => value.toText ++ " is not a valid answer for '" ++ name ++ "'"

/-- The wording of a fault: which part of the work it stopped, and the cause. -/
def Fault.message : Fault → String
  | .lexical error =>
    "Lexical error at " ++ toString error.position ++ ": " ++ error.cause.message
  | .grammar expected found =>
    "Syntax error at " ++ toString found.position ++ ": expected " ++ expected.wording
      ++ ", found " ++ found.kind.name ++ " '" ++ found.text ++ "'"
  | .invalid cause => "Invalid rule: " ++ cause.message
  | .storage cause => "Serialization error: " ++ cause.message
  | .evaluation cause => "Evaluation error: " ++ cause.message
  | .model cause => "Invalid model: " ++ cause.message
  | .answer cause => "Invalid answer: " ++ cause.message

/-! ## Steps -/

section Steps

variable {σ α : Type}

/-- The state that a step leaves, whether it succeeds or fails. -/
def leftAt : EStateM.Result Fault σ α → σ
  | .ok _ after => after
  | .error _ stopped => stopped

/-- What a step gives; the state belongs to it only where the step succeeds. -/
def resultOf : EStateM.Result Fault σ α → Except Fault (α × σ)
  | .ok value after => .ok (value, after)
  | .error fault _ => .error fault

/-- A step that fails leaves the state as it was. -/
def Atomic (step : EStateM Fault σ α) : Prop :=
  ∀ state fault stopped, step state = .error fault stopped → stopped = state

/-- An atomic step loses nothing when the state is given up where it fails. -/
theorem Atomic.eq_resultOf {step : EStateM Fault σ α} (h : Atomic step) (state : σ) :
    step state =
      match resultOf (step state) with
      | .ok (value, after) => .ok value after
      | .error fault => .error fault state := by
  cases hstep : step state with
  | ok value after => rfl
  | error fault stopped =>
    obtain rfl := h state fault stopped hstep
    rfl

end Steps

end Rulebook
