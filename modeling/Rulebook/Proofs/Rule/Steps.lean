import Rulebook.Proofs.Outcome
import Rulebook.Rule.Grammar

/-!
# What every step of a parser keeps

A parser moves in one way only, from its token to the next one. So a property of parsers that moving
keeps is kept by every step, whether the step succeeds or fails, and a step fails as moving fails or
for its own token (`Stepwise.rule`).
-/

namespace Rulebook.Parser

open Lexis (Token TokenKind)

/-- The parser is left with the property, and if the step failed, with a fault of the given sort. -/
def Leaves {α : Type} (property : Parser → Prop) (sort : Fault → Prop) :
    EStateM.Result Fault Parser α → Prop
  | .ok _ after => property after
  | .error fault stopped => property stopped ∧ sort fault

/-- From a parser with the property, the step leaves one with the property. -/
def Keeps {α : Type} (property : Parser → Prop) (sort : Fault → Prop) (step : Parse α) : Prop :=
  ∀ parser, property parser → Leaves property sort (step parser)

/-- What has to be known of a property and a sort of faults for every step to keep them. -/
structure Stepwise (property : Parser → Prop) (sort : Fault → Prop) : Prop where
  advance : Keeps property sort advance
  grammar (expected : Expected) (found : Token) : sort (.grammar expected found)
  overflow (text : String) (position : Nat) : sort (.lexical ⟨.numberOutOfRange text, position⟩)

variable {property : Parser → Prop} {sort : Fault → Prop} {α β : Type}

theorem keeps_pure (value : α) : Keeps property sort (pure value) :=
  fun _ h => h

theorem Keeps.bind {first : Parse α} {second : α → Parse β} (h : Keeps property sort first)
    (h' : ∀ value, Keeps property sort (second value)) :
    Keeps property sort (first >>= second) := by
  intro parser hparser
  have middle := h parser hparser
  simp only [Bind.bind, EStateM.bind]
  cases hfirst : first parser with
  | error fault stopped =>
    rw [hfirst] at middle
    exact middle
  | ok value after =>
    rw [hfirst] at middle
    exact h' value after middle

namespace Stepwise

variable (h : Stepwise property sort)

include h

theorem refuse (expected : Expected) : Keeps property sort (refuse expected : Parse α) :=
  fun parser hparser => ⟨hparser, h.grammar expected parser.current⟩

theorem accept (value : α) : Keeps property sort (accept value) :=
  h.advance.bind fun _ => keeps_pure value

theorem expect (kind : TokenKind) (expected : Expected) :
    Keeps property sort (expect kind expected) := by
  intro parser hparser
  unfold Parser.expect
  split
  · exact h.advance parser hparser
  · exact h.refuse expected parser hparser

theorem relation : Keeps property sort relation := by
  intro parser hparser
  unfold Parser.relation
  split
  · exact h.accept _ parser hparser
  · exact h.refuse .comparison parser hparser

theorem literalOf (token : Token) : FaultsOnly sort (literalOf token) := by
  unfold Parser.literalOf
  split
  · dsimp only
    split
    · exact faultsOnly_ok _
    · exact faultsOnly_error (h.overflow _ _)
  · exact faultsOnly_ok _
  · exact faultsOnly_ok _
  all_goals exact faultsOnly_error (h.grammar _ _)

theorem literal : Keeps property sort literal := by
  intro parser hparser
  unfold Parser.literal
  split
  · exact h.accept _ parser hparser
  · next fault hfault => exact ⟨hparser, h.literalOf _ fault hfault⟩

theorem comparison : Keeps property sort comparison :=
  (h.expect _ _).bind fun _ => h.relation.bind fun _ => h.literal.bind fun _ => keeps_pure _

/-- By the recursion of conditions: a comparison, the word behind it, and the others. -/
theorem condition : Keeps property sort condition := by
  have first {parser : Parser} {result : EStateM.Result Fault Parser Comparison}
      (heq : Parser.comparison parser = result) (hparser : property parser) :
      Leaves property sort result :=
    heq ▸ h.comparison parser hparser
  have next {parser : Parser} {result : EStateM.Result Fault Parser Token}
      (heq : Parser.advance parser = result) (hparser : property parser) :
      Leaves property sort result :=
    heq ▸ h.advance parser hparser
  intro parser
  fun_induction Parser.condition parser with
  | case1 parser fault stopped hfirst => exact first hfirst
  | case2 parser value after hfirst hand fault stopped hnext =>
    exact fun hparser => next hnext (first hfirst hparser)
  | case3 parser value after hfirst hand token middle hnext fault stopped hothers ih =>
    rw [hothers] at ih
    exact fun hparser => ih (next hnext (first hfirst hparser))
  | case4 parser value after hfirst hand token middle hnext others last hothers ih =>
    rw [hothers] at ih
    exact fun hparser => ih (next hnext (first hfirst hparser))
  | case5 parser value after hfirst hand => exact first hfirst

theorem rule : Keeps property sort rule :=
  (h.expect _ _).bind fun _ => h.condition.bind fun _ => (h.expect _ _).bind fun _ =>
    (h.expect _ _).bind fun _ => (h.expect _ _).bind fun _ => h.literal.bind fun _ =>
      (h.expect _ _).bind fun _ => keeps_pure _

end Stepwise

end Rulebook.Parser
