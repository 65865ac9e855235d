import Mathlib.Computability.RegularExpressions
import Rulebook.Proofs.Lexis.Respelling
import Rulebook.Rule.Grammar

/-!
# Phrases of tokens

The grammar of rules, said of token lists and not of a parser.

* `ruleGrammar` is the regular expression that the kinds of a rule's tokens match.
* `ReadsRule` reads a rule off its tokens: comparisons in their order, names and literals from the
  tokens' texts.
* `exists_readsRule_iff`: tokens read as a rule when their kinds match and their numbers are finite.
* `ReadsRule.congr`: tokens that are alike read as the same rule.
-/

namespace Rulebook

open Lexis (Token TokenKind)
open Number (Binary64 Numeral)

/-! ## Readings -/

/-- The kind of the tokens that spell a relation. -/
def Relation.kind : Relation → TokenKind
  | .equal => .equal
  | .less => .less
  | .more => .more
  | .moreOrEqual => .moreOrEqual
  | .lessOrEqual => .lessOrEqual
  | .notEqual => .notEqual

theorem relationOf?_eq_some_iff {kind : TokenKind} {relation : Relation} :
    relationOf? kind = some relation ↔ kind = relation.kind := by
  cases kind <;> cases relation <;> simp [relationOf?, Relation.kind]

/-- The number nearest to what a token's text denotes. -/
def numberOf (token : Token) : Binary64 :=
  (Numeral.ofPlainChars token.text.toList).nearest

/-- The literal that a token spells. -/
inductive ReadsLiteral (token : Token) : Literal → Prop
  | number (h : token.kind = .number) (finite : (numberOf token).isFinite = true) :
      ReadsLiteral token (.number (numberOf token))
  | identifier (h : token.kind = .identifier) : ReadsLiteral token (.text token.text)
  | text (h : token.kind = .text) : ReadsLiteral token (.text token.text)

inductive ReadsComparison : List Token → Comparison → Prop
  | mk {left op right : Token} {relation : Relation} {literal : Literal}
      (hleft : left.kind = .identifier) (hop : op.kind = relation.kind)
      (hright : ReadsLiteral right literal) :
      ReadsComparison [left, op, right] ⟨left.text, relation, literal⟩

inductive ReadsCondition : List Token → List Comparison → Prop
  | last {tokens : List Token} {comparison : Comparison} (h : ReadsComparison tokens comparison) :
      ReadsCondition tokens [comparison]
  | more {tokens rest : List Token} {joint : Token} {comparison : Comparison}
      {others : List Comparison} (h : ReadsComparison tokens comparison)
      (hjoint : joint.kind = .andWord) (hrest : ReadsCondition rest others) :
      ReadsCondition (tokens ++ joint :: rest) (comparison :: others)

/-- The rule that tokens spell, the end token included. -/
inductive ReadsRule : List Token → Rule → Prop
  | mk {opening joint target assign value close : Token} {tokens : List Token}
      {condition : List Comparison} {literal : Literal} (hopening : opening.kind = .ifWord)
      (hcondition : ReadsCondition tokens condition) (hjoint : joint.kind = .thenWord)
      (htarget : target.kind = .identifier) (hassign : assign.kind = .assign)
      (hvalue : ReadsLiteral value literal) (hclose : close.kind = .endOfInput) :
      ReadsRule (opening :: (tokens ++ [joint, target, assign, value, close]))
        ⟨condition, target.text, literal⟩

/-! ## The grammar of kinds -/

section Grammar

open RegularExpression (char)

def literalGrammar : RegularExpression TokenKind :=
  char .number + char .identifier + char .text

def relationGrammar : RegularExpression TokenKind :=
  char .equal + char .less + char .more + char .lessOrEqual + char .moreOrEqual + char .notEqual

def comparisonGrammar : RegularExpression TokenKind :=
  char .identifier * relationGrammar * literalGrammar

/-- `comparison (and comparison)*` -/
def conditionGrammar : RegularExpression TokenKind :=
  comparisonGrammar * (char TokenKind.andWord * comparisonGrammar).star

/-- `if condition then identifier assign literal end` -/
def ruleGrammar : RegularExpression TokenKind :=
  char .ifWord * conditionGrammar * char .thenWord * char .identifier * char .assign *
    literalGrammar * char .endOfInput

end Grammar

/-- The kinds of the tokens match the expression. -/
def Matches (grammar : RegularExpression TokenKind) (tokens : List Token) : Prop :=
  tokens.map Token.kind ∈ grammar.matches'

section Matches

variable {first second : RegularExpression TokenKind} {tokens : List Token}

theorem matches_char {kind : TokenKind} :
    Matches (.char kind) tokens ↔ ∃ token, tokens = [token] ∧ token.kind = kind := by
  simp only [Matches, RegularExpression.matches'_char]
  constructor
  · intro h
    obtain ⟨token, rfl, rfl⟩ := List.map_eq_singleton_iff.1 h
    exact ⟨token, rfl, rfl⟩
  · rintro ⟨token, rfl, rfl⟩
    rfl

theorem matches_add : Matches (first + second) tokens ↔
    Matches first tokens ∨ Matches second tokens := by
  rw [Matches, RegularExpression.matches'_add]
  rfl

theorem matches_mul : Matches (first * second) tokens ↔
    ∃ front back, tokens = front ++ back ∧ Matches first front ∧ Matches second back := by
  rw [Matches, RegularExpression.matches'_mul, Language.mem_mul]
  constructor
  · rintro ⟨front', hfront, back', hback, heq⟩
    obtain ⟨front, back, rfl, rfl, rfl⟩ := List.map_eq_append_iff.1 heq.symm
    exact ⟨front, back, rfl, hfront, hback⟩
  · rintro ⟨front, back, rfl, hfront, hback⟩
    exact ⟨_, hfront, _, hback, List.map_append.symm⟩

theorem matches_star : Matches first.star tokens ↔
    ∃ parts : List (List Token), tokens = parts.flatten ∧ ∀ part ∈ parts, Matches first part := by
  rw [Matches, RegularExpression.matches'_star, Language.mem_kstar]
  constructor
  · rintro ⟨kinds, heq, hall⟩
    induction kinds generalizing tokens with
    | nil => exact ⟨[], List.map_eq_nil_iff.1 heq, by simp⟩
    | cons head kinds ih =>
      obtain ⟨front, back, rfl, rfl, hback⟩ := List.map_eq_append_iff.1 heq
      obtain ⟨parts, rfl, hparts⟩ := ih hback fun y hy => hall y (List.mem_cons_of_mem _ hy)
      exact ⟨front :: parts, rfl, List.forall_mem_cons.2 ⟨hall _ List.mem_cons_self, hparts⟩⟩
  · rintro ⟨parts, rfl, hparts⟩
    refine ⟨parts.map (·.map Token.kind), List.map_flatten, fun y hy => ?_⟩
    obtain ⟨part, hpart, rfl⟩ := List.mem_map.1 hy
    exact hparts part hpart

theorem matches_literal : Matches literalGrammar tokens ↔
    ∃ token, tokens = [token] ∧
      (token.kind = .number ∨ token.kind = .identifier ∨ token.kind = .text) := by
  simp only [literalGrammar, matches_add, matches_char, ← exists_or, ← and_or_left, or_assoc]

theorem matches_relation : Matches relationGrammar tokens ↔
    ∃ (token : Token) (relation : Relation), tokens = [token] ∧ token.kind = relation.kind := by
  simp only [relationGrammar, matches_add, matches_char, ← exists_or, ← and_or_left, or_assoc]
  constructor
  · rintro ⟨token, rfl, h | h | h | h | h | h⟩
    · exact ⟨token, .equal, rfl, h⟩
    · exact ⟨token, .less, rfl, h⟩
    · exact ⟨token, .more, rfl, h⟩
    · exact ⟨token, .lessOrEqual, rfl, h⟩
    · exact ⟨token, .moreOrEqual, rfl, h⟩
    · exact ⟨token, .notEqual, rfl, h⟩
  · rintro ⟨token, relation, rfl, h⟩
    refine ⟨token, rfl, ?_⟩
    cases relation <;> simp [h, Relation.kind]

theorem matches_comparison : Matches comparisonGrammar tokens ↔
    ∃ (left op right : Token) (relation : Relation), tokens = [left, op, right] ∧
      left.kind = .identifier ∧ op.kind = relation.kind ∧ Matches literalGrammar [right] := by
  simp only [comparisonGrammar, matches_mul, matches_char, matches_relation]
  constructor
  · rintro ⟨_, back, rfl, ⟨_, _, rfl, ⟨left, rfl, hleft⟩, op, relation, rfl, hop⟩, hright⟩
    obtain ⟨right, rfl, -⟩ := matches_literal.1 hright
    exact ⟨left, op, right, relation, rfl, hleft, hop, hright⟩
  · rintro ⟨left, op, right, relation, rfl, hleft, hop, hright⟩
    exact ⟨[left, op], [right], rfl,
      ⟨[left], [op], rfl, ⟨left, rfl, hleft⟩, op, relation, rfl, hop⟩, hright⟩

end Matches

/-! ## Reading what matches -/

/-- Every number among the tokens is finite. -/
def FiniteNumbers (tokens : List Token) : Prop :=
  ∀ token ∈ tokens, token.kind = .number → (numberOf token).isFinite = true

theorem finiteNumbers_append {front back : List Token} :
    FiniteNumbers (front ++ back) ↔ FiniteNumbers front ∧ FiniteNumbers back :=
  List.forall_mem_append

theorem finiteNumbers_cons {token : Token} {tokens : List Token} :
    FiniteNumbers (token :: tokens) ↔
      (token.kind = .number → (numberOf token).isFinite = true) ∧ FiniteNumbers tokens :=
  List.forall_mem_cons

theorem finiteNumbers_nil : FiniteNumbers [] :=
  nofun

theorem Relation.kind_ne_number (relation : Relation) : relation.kind ≠ .number := by
  cases relation <;> exact nofun

theorem exists_readsLiteral_iff {token : Token} :
    (∃ literal, ReadsLiteral token literal) ↔
      Matches literalGrammar [token] ∧ FiniteNumbers [token] := by
  constructor
  · rintro ⟨literal, h⟩
    rw [matches_literal, finiteNumbers_cons]
    cases h with
    | number h finite => exact ⟨⟨token, rfl, Or.inl h⟩, fun _ => finite, finiteNumbers_nil⟩
    | identifier h =>
      rw [h]
      exact ⟨⟨token, rfl, Or.inr (Or.inl h)⟩, nofun, finiteNumbers_nil⟩
    | text h =>
      rw [h]
      exact ⟨⟨token, rfl, Or.inr (Or.inr h)⟩, nofun, finiteNumbers_nil⟩
  · rintro ⟨hmatches, hfinite⟩
    obtain ⟨_, heq, h⟩ := matches_literal.1 hmatches
    obtain rfl := List.singleton_inj.1 heq
    rcases h with h | h | h
    · exact ⟨_, .number h (hfinite token List.mem_cons_self h)⟩
    · exact ⟨_, .identifier h⟩
    · exact ⟨_, .text h⟩

theorem exists_readsComparison_iff {tokens : List Token} :
    (∃ comparison, ReadsComparison tokens comparison) ↔
      Matches comparisonGrammar tokens ∧ FiniteNumbers tokens := by
  constructor
  · rintro ⟨_, ⟨hleft, hop, hright⟩⟩
    obtain ⟨hliteral, hfinite⟩ := exists_readsLiteral_iff.1 ⟨_, hright⟩
    refine ⟨matches_comparison.2 ⟨_, _, _, _, rfl, hleft, hop, hliteral⟩, ?_⟩
    rw [finiteNumbers_cons, finiteNumbers_cons, hleft, hop]
    exact ⟨nofun, fun h => absurd h (Relation.kind_ne_number _), hfinite⟩
  · rintro ⟨hmatches, hfinite⟩
    obtain ⟨left, op, right, relation, rfl, hleft, hop, hright⟩ := matches_comparison.1 hmatches
    have hfinite' : FiniteNumbers [right] := fun token htoken =>
      hfinite token (List.mem_cons_of_mem _ (List.mem_cons_of_mem _ htoken))
    obtain ⟨literal, hliteral⟩ := exists_readsLiteral_iff.2 ⟨hright, hfinite'⟩
    exact ⟨_, .mk hleft hop hliteral⟩

theorem matches_condition_of_reads {tokens : List Token} {condition : List Comparison}
    (h : ReadsCondition tokens condition) :
    Matches conditionGrammar tokens ∧ FiniteNumbers tokens := by
  induction h with
  | @last tokens comparison h =>
    obtain ⟨hmatches, hfinite⟩ := exists_readsComparison_iff.1 ⟨_, h⟩
    exact ⟨matches_mul.2 ⟨tokens, [], (List.append_nil _).symm, hmatches,
      matches_star.2 ⟨[], rfl, nofun⟩⟩, hfinite⟩
  | @more tokens rest joint comparison others h hjoint hrest ih =>
    obtain ⟨hmatches, hfinite⟩ := exists_readsComparison_iff.1 ⟨_, h⟩
    obtain ⟨hmatches', hfinite'⟩ := ih
    obtain ⟨front, back, rfl, hfront, hback⟩ := matches_mul.1 hmatches'
    obtain ⟨parts, rfl, hparts⟩ := matches_star.1 hback
    have part : Matches (.char TokenKind.andWord * comparisonGrammar) (joint :: front) :=
      matches_mul.2 ⟨[joint], front, rfl, matches_char.2 ⟨joint, rfl, hjoint⟩, hfront⟩
    refine ⟨matches_mul.2 ⟨tokens, _, rfl, hmatches, matches_star.2 ⟨(joint :: front) :: parts, ?_,
      List.forall_mem_cons.2 ⟨part, hparts⟩⟩⟩, ?_⟩
    · rw [List.flatten_cons, List.cons_append]
    · rw [finiteNumbers_append, finiteNumbers_cons, hjoint]
      exact ⟨hfinite, nofun, hfinite'⟩

theorem exists_readsCondition {tokens : List Token} (hmatches : Matches conditionGrammar tokens)
    (hfinite : FiniteNumbers tokens) : ∃ condition, ReadsCondition tokens condition := by
  obtain ⟨front, back, rfl, hfront, hback⟩ := matches_mul.1 hmatches
  obtain ⟨parts, rfl, hparts⟩ := matches_star.1 hback
  clear hmatches hback
  induction parts generalizing front with
  | nil =>
    rw [List.flatten_nil, List.append_nil] at hfinite ⊢
    obtain ⟨comparison, h⟩ := exists_readsComparison_iff.2 ⟨hfront, hfinite⟩
    exact ⟨_, .last h⟩
  | cons part parts ih =>
    obtain ⟨hpart, hrest⟩ := List.forall_mem_cons.1 hparts
    obtain ⟨_, next, rfl, hjoint, hnext⟩ := matches_mul.1 hpart
    obtain ⟨joint, rfl, hkind⟩ := matches_char.1 hjoint
    rw [List.flatten_cons, List.singleton_append, List.cons_append] at hfinite ⊢
    obtain ⟨hfinite, hfinite'⟩ := finiteNumbers_append.1 hfinite
    obtain ⟨comparison, h⟩ := exists_readsComparison_iff.2 ⟨hfront, hfinite⟩
    obtain ⟨others, hothers⟩ := ih next hnext hrest (finiteNumbers_cons.1 hfinite').2
    exact ⟨_, .more h hkind hothers⟩

theorem matches_rule {tokens : List Token} : Matches ruleGrammar tokens ↔
    ∃ (opening : Token) (inner : List Token) (joint target assign value close : Token),
      tokens = opening :: (inner ++ [joint, target, assign, value, close]) ∧
      opening.kind = .ifWord ∧ Matches conditionGrammar inner ∧ joint.kind = .thenWord ∧
      target.kind = .identifier ∧ assign.kind = .assign ∧ Matches literalGrammar [value] ∧
      close.kind = .endOfInput := by
  have one {kind : TokenKind} {token : Token} (h : token.kind = kind) :
      Matches (.char kind) [token] := matches_char.2 ⟨token, rfl, h⟩
  constructor
  · intro h
    obtain ⟨_, _, rfl, h, hclose⟩ := matches_mul.1 h
    obtain ⟨_, _, rfl, h, hvalue⟩ := matches_mul.1 h
    obtain ⟨_, _, rfl, h, hassign⟩ := matches_mul.1 h
    obtain ⟨_, _, rfl, h, htarget⟩ := matches_mul.1 h
    obtain ⟨_, _, rfl, h, hjoint⟩ := matches_mul.1 h
    obtain ⟨_, inner, rfl, hopening, hinner⟩ := matches_mul.1 h
    obtain ⟨opening, rfl, kind₁⟩ := matches_char.1 hopening
    obtain ⟨joint, rfl, kind₂⟩ := matches_char.1 hjoint
    obtain ⟨target, rfl, kind₃⟩ := matches_char.1 htarget
    obtain ⟨assign, rfl, kind₄⟩ := matches_char.1 hassign
    obtain ⟨value, rfl, -⟩ := matches_literal.1 hvalue
    obtain ⟨close, rfl, kind₅⟩ := matches_char.1 hclose
    exact ⟨opening, inner, joint, target, assign, value, close, by simp, kind₁, hinner, kind₂,
      kind₃, kind₄, hvalue, kind₅⟩
  · rintro ⟨opening, inner, joint, target, assign, value, close, rfl, hopening, hinner, hjoint,
      htarget, hassign, hvalue, hclose⟩
    have front := matches_mul.2 ⟨_, _, rfl, one hopening, hinner⟩
    have upto_joint := matches_mul.2 ⟨_, _, rfl, front, one hjoint⟩
    have upto_target := matches_mul.2 ⟨_, _, rfl, upto_joint, one htarget⟩
    have upto_assign := matches_mul.2 ⟨_, _, rfl, upto_target, one hassign⟩
    have upto_value := matches_mul.2 ⟨_, _, rfl, upto_assign, hvalue⟩
    exact matches_mul.2 ⟨_, _, by simp, upto_value, one hclose⟩

/-- Tokens spell a rule when their kinds match the grammar and their numbers are finite. -/
theorem exists_readsRule_iff {tokens : List Token} :
    (∃ rule, ReadsRule tokens rule) ↔ Matches ruleGrammar tokens ∧ FiniteNumbers tokens := by
  constructor
  · rintro ⟨_, hopening, hcondition, hjoint, htarget, hassign, hvalue, hclose⟩
    obtain ⟨hinner, hfinite⟩ := matches_condition_of_reads hcondition
    obtain ⟨hliteral, hnumber⟩ := exists_readsLiteral_iff.1 ⟨_, hvalue⟩
    refine ⟨matches_rule.2 ⟨_, _, _, _, _, _, _, rfl, hopening, hinner, hjoint, htarget, hassign,
      hliteral, hclose⟩, ?_⟩
    simp only [finiteNumbers_cons, finiteNumbers_append, hopening, hjoint, htarget, hassign, hclose]
    exact ⟨nofun, hfinite, nofun, nofun, nofun, hnumber _ List.mem_cons_self, nofun, nofun⟩
  · rintro ⟨hmatches, hfinite⟩
    obtain ⟨opening, inner, joint, target, assign, value, close, rfl, hopening, hinner, hjoint,
      htarget, hassign, hvalue, hclose⟩ := matches_rule.1 hmatches
    simp only [finiteNumbers_cons, finiteNumbers_append] at hfinite
    obtain ⟨-, hcondition, -, -, -, hnumber, -⟩ := hfinite
    obtain ⟨condition, hcondition⟩ := exists_readsCondition hinner hcondition
    obtain ⟨literal, hliteral⟩ := exists_readsLiteral_iff.2
      ⟨hvalue, finiteNumbers_cons.2 ⟨hnumber, finiteNumbers_nil⟩⟩
    exact ⟨_, .mk hopening hcondition hjoint htarget hassign hliteral hclose⟩

/-! ## Tokens that are alike -/

theorem forall₂_append {α β : Type} {r : α → β → Prop} {front back : List α} {whole : List β}
    (h : List.Forall₂ r (front ++ back) whole) :
    ∃ front' back', whole = front' ++ back' ∧ List.Forall₂ r front front' ∧
      List.Forall₂ r back back' :=
  ⟨_, _, (List.take_append_drop front.length whole).symm,
    (List.forall₂_take_append _ _ _ h.flip).flip, (List.forall₂_drop_append _ _ _ h.flip).flip⟩

theorem ReadsLiteral.congr {token token' : Token} {literal : Literal}
    (h : ReadsLiteral token literal) (alike : token.Alike token') :
    ReadsLiteral token' literal := by
  cases h with
  | number kind finite =>
    have text := alike.text (.inr (.inl kind))
    have same : numberOf token = numberOf token' := by rw [numberOf, numberOf, text]
    rw [same] at finite ⊢
    exact .number (alike.kind.symm.trans kind) finite
  | identifier kind =>
    rw [alike.text (.inl kind)]
    exact .identifier (alike.kind.symm.trans kind)
  | text kind =>
    rw [alike.text (.inr (.inr kind))]
    exact .text (alike.kind.symm.trans kind)

theorem ReadsComparison.congr {tokens tokens' : List Token} {comparison : Comparison}
    (h : ReadsComparison tokens comparison) (alike : List.Forall₂ Token.Alike tokens tokens') :
    ReadsComparison tokens' comparison := by
  obtain ⟨hleft, hop, hright⟩ := h
  obtain _ | ⟨left, _ | ⟨op, _ | ⟨right, _ | _⟩⟩⟩ := alike
  rw [left.text (.inl hleft)]
  exact .mk (left.kind.symm.trans hleft) (op.kind.symm.trans hop) (hright.congr right)

theorem ReadsCondition.congr {tokens tokens' : List Token} {condition : List Comparison}
    (h : ReadsCondition tokens condition) (alike : List.Forall₂ Token.Alike tokens tokens') :
    ReadsCondition tokens' condition := by
  induction h generalizing tokens' with
  | last h => exact .last (h.congr alike)
  | more h hjoint _ ih =>
    obtain ⟨front, _, rfl, first, ending⟩ := forall₂_append alike
    obtain _ | ⟨joint, others⟩ := ending
    exact .more (h.congr first) (joint.kind.symm.trans hjoint) (ih others)

/-- Tokens that are alike spell the same rule. -/
theorem ReadsRule.congr {tokens tokens' : List Token} {rule : Rule} (h : ReadsRule tokens rule)
    (alike : List.Forall₂ Token.Alike tokens tokens') : ReadsRule tokens' rule := by
  obtain ⟨hopening, hcondition, hjoint, htarget, hassign, hvalue, hclose⟩ := h
  obtain _ | ⟨opening, alike⟩ := alike
  obtain ⟨inner, _, rfl, condition, ending⟩ := forall₂_append alike
  obtain _ | ⟨joint, _ | ⟨target, _ | ⟨assign, _ | ⟨value, _ | ⟨close, _ | _⟩⟩⟩⟩⟩ := ending
  rw [target.text (.inl htarget)]
  exact .mk (opening.kind.symm.trans hopening) (hcondition.congr condition)
    (joint.kind.symm.trans hjoint) (target.kind.symm.trans htarget)
    (assign.kind.symm.trans hassign) (hvalue.congr value) (close.kind.symm.trans hclose)

end Rulebook
