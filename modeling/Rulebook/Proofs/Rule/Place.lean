import Rulebook.Proofs.Rule.Phrase

/-!
# Places in a rule

The grammar of rules as an automaton over kinds of tokens. Its states are the places where a token
can stand, and every place has an expression for what may follow there (`Place.rest`).

* `Place.cons_mem_rest_iff`: the automaton goes on as the expressions do.
* `viable_iff`: kinds begin a sentence of the grammar exactly when the automaton can read them.
-/

namespace Rulebook

open Lexis (TokenKind)

/-- The kinds that can stand where the grammar asks for a literal. -/
def isLiteralKind : TokenKind → Bool
  | .number | .identifier | .text => true
  | .ifWord | .thenWord | .andWord | .equal | .less | .more | .lessOrEqual | .moreOrEqual
  | .notEqual | .assign | .endOfInput => false

/-- What stands next in a rule. -/
inductive Place where
  /-- The word that opens the rule. -/
  | opening
  | left
  | relation
  | right
  /-- The word behind a comparison. -/
  | joint
  | target
  | assign
  | value
  | close
  /-- Nothing, as the rule is complete. -/
  | finished
  deriving DecidableEq

namespace Place

/-- The place behind a token of the given kind; `none` where the grammar has no such token. -/
def next? : Place → TokenKind → Option Place
  | .opening, kind => if kind = .ifWord then some .left else none
  | .left, kind => if kind = .identifier then some .relation else none
  | .relation, kind => if kind.isComparison then some .right else none
  | .right, kind => if isLiteralKind kind then some .joint else none
  | .joint, kind =>
    if kind = .andWord then some .left else if kind = .thenWord then some .target else none
  | .target, kind => if kind = .identifier then some .assign else none
  | .assign, kind => if kind = .assign then some .value else none
  | .value, kind => if isLiteralKind kind then some .close else none
  | .close, kind => if kind = .endOfInput then some .finished else none
  | .finished, _ => none

/-- The place behind tokens of the given kinds. -/
def walk? (place : Place) (kinds : List TokenKind) : Option Place :=
  kinds.foldlM next? place

theorem walk?_cons (place : Place) (kind : TokenKind) (kinds : List TokenKind) :
    place.walk? (kind :: kinds) = (place.next? kind).bind (·.walk? kinds) :=
  List.foldlM_cons

theorem walk?_append (place : Place) (front back : List TokenKind) :
    place.walk? (front ++ back) = (place.walk? front).bind (·.walk? back) :=
  List.foldlM_append

theorem walk?_concat (place : Place) (kinds : List TokenKind) (kind : TokenKind) :
    place.walk? (kinds ++ [kind]) = (place.walk? kinds).bind (·.next? kind) := by
  rw [walk?_append]
  congr 1
  funext here
  rw [walk?_cons]
  cases here.next? kind <;> rfl

/-! ## What follows -/

section Rest

open RegularExpression (char)

/-- What may follow a comparison. -/
def furtherGrammar : RegularExpression TokenKind :=
  (char TokenKind.andWord * comparisonGrammar).star * (char .thenWord * (char .identifier *
    (char .assign * (literalGrammar * char .endOfInput))))

/-- What may follow at a place. -/
def rest : Place → RegularExpression TokenKind
  | .opening => char .ifWord * (char .identifier * (relationGrammar *
      (literalGrammar * furtherGrammar)))
  | .left => char .identifier * (relationGrammar * (literalGrammar * furtherGrammar))
  | .relation => relationGrammar * (literalGrammar * furtherGrammar)
  | .right => literalGrammar * furtherGrammar
  | .joint => furtherGrammar
  | .target => char .identifier * (char .assign * (literalGrammar * char .endOfInput))
  | .assign => char .assign * (literalGrammar * char .endOfInput)
  | .value => literalGrammar * char .endOfInput
  | .close => char .endOfInput
  | .finished => 1

end Rest

section Languages

variable {kind : TokenKind} {kinds : List TokenKind} {expression : RegularExpression TokenKind}

theorem cons_mem_char_mul_iff {first : TokenKind} :
    kind :: kinds ∈ (.char first * expression).matches' ↔
      kind = first ∧ kinds ∈ expression.matches' := by
  rw [RegularExpression.matches'_mul, RegularExpression.matches'_char, Language.mem_mul]
  constructor
  · rintro ⟨_, rfl, back, hback, heq⟩
    obtain ⟨rfl, rfl⟩ := List.cons.inj heq
    exact ⟨rfl, hback⟩
  · rintro ⟨rfl, hback⟩
    exact ⟨_, rfl, kinds, hback, rfl⟩

theorem cons_mem_add_mul_iff {first second : RegularExpression TokenKind} :
    kind :: kinds ∈ ((first + second) * expression).matches' ↔
      kind :: kinds ∈ (first * expression).matches' ∨
        kind :: kinds ∈ (second * expression).matches' := by
  simp only [RegularExpression.matches'_mul, RegularExpression.matches'_add, add_mul]
  rfl

theorem cons_mem_literal_mul_iff :
    kind :: kinds ∈ (literalGrammar * expression).matches' ↔
      isLiteralKind kind = true ∧ kinds ∈ expression.matches' := by
  simp only [literalGrammar, cons_mem_add_mul_iff, cons_mem_char_mul_iff, ← or_and_right]
  cases kind <;> simp [isLiteralKind]

theorem cons_mem_relation_mul_iff :
    kind :: kinds ∈ (relationGrammar * expression).matches' ↔
      kind.isComparison = true ∧ kinds ∈ expression.matches' := by
  simp only [relationGrammar, cons_mem_add_mul_iff, cons_mem_char_mul_iff, ← or_and_right]
  cases kind <;> simp [TokenKind.isComparison]

/-- Behind a comparison stands one more comparison with its word, or what follows the condition. -/
theorem cons_mem_further_iff :
    kind :: kinds ∈ furtherGrammar.matches' ↔
      (kind = .andWord ∧ kinds ∈ left.rest.matches') ∨
        (kind = .thenWord ∧ kinds ∈ target.rest.matches') := by
  have unfolded : furtherGrammar.matches'
      = (.char .thenWord * target.rest : RegularExpression TokenKind).matches'
        + (.char .andWord * left.rest : RegularExpression TokenKind).matches' := by
    simp only [furtherGrammar, comparisonGrammar, rest, RegularExpression.matches'_mul,
      RegularExpression.matches'_star]
    nth_rewrite 1 [← Language.one_add_self_mul_kstar_eq_kstar]
    simp only [add_mul, one_mul, mul_assoc]
  rw [unfolded, Language.mem_add, cons_mem_char_mul_iff, cons_mem_char_mul_iff, or_comm]

theorem cons_mem_rest_iff (place : Place) :
    kind :: kinds ∈ place.rest.matches' ↔
      ∃ next, place.next? kind = some next ∧ kinds ∈ next.rest.matches' := by
  cases place with
  | opening => rw [rest, cons_mem_char_mul_iff]; simp [next?, rest]
  | left => rw [rest, cons_mem_char_mul_iff]; simp [next?, rest]
  | relation => rw [rest, cons_mem_relation_mul_iff]; simp [next?, rest]
  | right => rw [rest, cons_mem_literal_mul_iff]; simp [next?, rest]
  | joint =>
    rw [rest, cons_mem_further_iff]
    cases kind <;> simp [next?]
  | target => rw [rest, cons_mem_char_mul_iff]; simp [next?, rest]
  | assign => rw [rest, cons_mem_char_mul_iff]; simp [next?, rest]
  | value => rw [rest, cons_mem_literal_mul_iff]; simp [next?, rest]
  | close =>
    have single : kind :: kinds ∈ close.rest.matches' ↔ kind :: kinds = [.endOfInput] := Iff.rfl
    have nothing : kinds ∈ finished.rest.matches' ↔ kinds = [] := Iff.rfl
    rw [single, List.cons.injEq]
    simp [next?, nothing]
  | finished =>
    rw [rest, RegularExpression.matches'_epsilon]
    simp [next?]

/-- A rule is complete at its last place and at no other. -/
theorem nil_mem_rest_iff (place : Place) : [] ∈ place.rest.matches' ↔ place = .finished := by
  rw [← RegularExpression.rmatch_iff_matches']
  cases place <;> decide

/-- The kinds that may follow at a place are those with which the automaton completes a rule. -/
theorem mem_rest_iff (place : Place) :
    kinds ∈ place.rest.matches' ↔ place.walk? kinds = some .finished := by
  induction kinds generalizing place with
  | nil => simp [nil_mem_rest_iff, walk?]
  | cons kind kinds ih =>
    rw [cons_mem_rest_iff, walk?_cons, Option.bind_eq_some_iff]
    simp only [ih]

/-- What may follow at the first place are the sentences. -/
theorem matches_rest_opening : opening.rest.matches' = ruleGrammar.matches' := by
  simp only [rest, furtherGrammar, ruleGrammar, conditionGrammar, comparisonGrammar,
    RegularExpression.matches'_mul, mul_assoc]

end Languages

/-- From every place the rule can be completed. -/
theorem exists_completion (place : Place) : ∃ kinds, place.walk? kinds = some .finished := by
  cases place with
  | opening => exact ⟨[.ifWord, .identifier, .equal, .number, .thenWord, .identifier, .assign,
      .number, .endOfInput], rfl⟩
  | left => exact ⟨[.identifier, .equal, .number, .thenWord, .identifier, .assign, .number,
      .endOfInput], rfl⟩
  | relation => exact ⟨[.equal, .number, .thenWord, .identifier, .assign, .number,
      .endOfInput], rfl⟩
  | right => exact ⟨[.number, .thenWord, .identifier, .assign, .number, .endOfInput], rfl⟩
  | joint => exact ⟨[.thenWord, .identifier, .assign, .number, .endOfInput], rfl⟩
  | target => exact ⟨[.identifier, .assign, .number, .endOfInput], rfl⟩
  | assign => exact ⟨[.assign, .number, .endOfInput], rfl⟩
  | value => exact ⟨[.number, .endOfInput], rfl⟩
  | close => exact ⟨[.endOfInput], rfl⟩
  | finished => exact ⟨[], rfl⟩

end Place

/-! ## Beginnings of rules -/

/-- Some rule begins with tokens of these kinds. -/
def Viable (kinds : List TokenKind) : Prop :=
  ∃ sentence ∈ ruleGrammar.matches', kinds <+: sentence

theorem viable_iff {kinds : List TokenKind} :
    Viable kinds ↔ ∃ place, Place.opening.walk? kinds = some place := by
  constructor
  · intro h
    obtain ⟨sentence, hsentence, back, rfl⟩ := h
    rw [← Place.matches_rest_opening, Place.mem_rest_iff, Place.walk?_append,
      Option.bind_eq_some_iff] at hsentence
    obtain ⟨place, hplace, -⟩ := hsentence
    exact ⟨place, hplace⟩
  · intro h
    obtain ⟨place, hplace⟩ := h
    obtain ⟨back, hback⟩ := place.exists_completion
    refine ⟨kinds ++ back, ?_, List.prefix_append kinds back⟩
    rw [← Place.matches_rest_opening, Place.mem_rest_iff, Place.walk?_append, hplace]
    exact hback

/-- Behind a beginning of a rule, the place there says which kinds can stand next. -/
theorem viable_concat_iff {kinds : List TokenKind} {place : Place}
    (h : Place.opening.walk? kinds = some place) (kind : TokenKind) :
    Viable (kinds ++ [kind]) ↔ (place.next? kind).isSome = true := by
  rw [viable_iff, Place.walk?_concat, h, Option.isSome_iff_exists]
  rfl

end Rulebook
