import Rulebook.Rule.Validity
import Rulebook.Proofs.Rule.Steps

/-!
# Why sources are refused

A source is refused for its characters, for its grammar, or because its rule has no meaning on its
own or among the declarations of a model. These are the faults of compiling: parsing gives no others
(`refusesOnly_parse`), and checking gives those of the last sort only (`faultsOnly_validate`,
`faultsOnly_checkAgainst`).
-/

namespace Rulebook

/-! ## Results without other faults -/

/-- Where there is no result, there is a fault of compiling. -/
def RefusesOnly {α : Type} (result : Except Fault α) : Prop :=
  ∀ fault, result = .error fault → fault.isCompileFault = true

theorem refusesOnly_ok {α : Type} (value : α) : RefusesOnly (.ok value) :=
  faultsOnly_ok value

theorem refusesOnly_error {α : Type} {fault : Fault} (h : fault.isCompileFault = true) :
    RefusesOnly (.error fault : Except Fault α) :=
  faultsOnly_error h

theorem RefusesOnly.bind {α β : Type} {first : Except Fault α} {second : α → Except Fault β}
    (h : RefusesOnly first) (h' : ∀ value, RefusesOnly (second value)) :
    RefusesOnly (first >>= second) :=
  FaultsOnly.bind h h'

/-! ## Refused sources -/

/-- Every step of the parser fails with a fault of compiling. -/
theorem Parser.stepwise_isCompileFault :
    Stepwise (fun _ => True) fun fault => fault.isCompileFault = true where
  advance parser _ := by
    unfold advance
    split
    · trivial
    · exact ⟨trivial, rfl⟩
  grammar _ _ := rfl
  overflow _ _ := rfl

theorem refusesOnly_parse (source : String) : RefusesOnly (Rule.parse source) := by
  refine RefusesOnly.bind ?_ fun parser => ?_
  · unfold Parser.ofStream
    split
    · exact refusesOnly_ok _
    · exact refusesOnly_error rfl
  · have kept := Parser.stepwise_isCompileFault.rule parser trivial
    cases hrule : parser.rule with
    | error fault stopped =>
      rw [hrule] at kept
      exact refusesOnly_error kept.2
    | ok rule last => exact refusesOnly_ok rule

/-! ## Rules without meaning -/

/-- The rule was understood, but it has no meaning. -/
def Fault.IsInvalid (fault : Fault) : Prop :=
  ∃ cause, fault = .invalid cause

theorem isInvalid_invalid (cause : InvalidCause) : (Fault.invalid cause).IsInvalid :=
  ⟨cause, rfl⟩

theorem faultsOnly_validate (rule : Rule) : FaultsOnly Fault.IsInvalid rule.validate := by
  unfold Rule.validate
  split
  · exact faultsOnly_error (isInvalid_invalid _)
  · split
    · exact faultsOnly_error (isInvalid_invalid _)
    · exact faultsOnly_ok ()

theorem refusesOnly_validate (rule : Rule) : RefusesOnly rule.validate := by
  refine (faultsOnly_validate rule).mono ?_
  rintro _ ⟨cause, rfl⟩
  rfl

theorem faultsOnly_checkLiteral (name : String) (literal : Literal) (kind : ValueKind) :
    FaultsOnly Fault.IsInvalid (kind.checkLiteral name literal) := by
  cases kind with
  | number =>
    cases literal with
    | number x => exact faultsOnly_ok ()
    | text value => exact faultsOnly_error (isInvalid_invalid _)
  | choice values =>
    cases literal with
    | number x => exact faultsOnly_error (isInvalid_invalid _)
    | text value =>
      rw [ValueKind.checkLiteral]
      by_cases known : values.contains value = true
      · rw [if_pos known]
        exact faultsOnly_ok ()
      · rw [if_neg known]
        exact faultsOnly_error (isInvalid_invalid _)

theorem faultsOnly_checkCondition (schema : Schema) (condition : List Comparison) :
    FaultsOnly Fault.IsInvalid (checkCondition schema condition) := by
  induction condition with
  | nil => exact faultsOnly_ok ()
  | cons comparison rest ih =>
    rw [checkCondition]
    refine FaultsOnly.bind ?_ fun _ => ih
    unfold Comparison.checkAgainst
    split
    · exact faultsOnly_checkLiteral _ _ _
    · exact faultsOnly_error (isInvalid_invalid _)

theorem faultsOnly_checkAgainst (schema : Schema) (rule : Rule) :
    FaultsOnly Fault.IsInvalid (rule.checkAgainst schema) := by
  refine (faultsOnly_validate rule).bind fun _ =>
    (faultsOnly_checkCondition schema rule.condition).bind fun _ => ?_
  unfold Rule.checkTarget
  split
  · exact faultsOnly_checkLiteral _ _ _
  · exact faultsOnly_error (isInvalid_invalid _)

end Rulebook
