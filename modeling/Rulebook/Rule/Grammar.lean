import Rulebook.Fault
import Rulebook.Lexis.TokenStream

/-!
# The grammar of rules

    rule       := IF condition THEN identifier ASSIGN literal END
    condition  := comparison (AND comparison)*
    comparison := identifier relation literal
    literal    := number | identifier | text

The parser looks one token ahead. A step that fails leaves the parser where it stopped, so that a
parser can be used again; a token is consumed only together with the next one coming up, and so a
lexical error behind a token keeps the parser on that token.
-/

namespace Rulebook

open Lexis (Token TokenKind TokenStream Scanner LexicalError)
open Number (Numeral)

/-- The relation that a token denotes. -/
def relationOf? : TokenKind → Option Relation
  | .equal => some .equal
  | .less => some .less
  | .more => some .more
  | .lessOrEqual => some .lessOrEqual
  | .moreOrEqual => some .moreOrEqual
  | .notEqual => some .notEqual
  | .number | .identifier | .text | .ifWord | .thenWord | .andWord | .assign
  | .endOfInput => none

/-- The tokens that denote a relation are the comparisons. -/
theorem relationOf?_isSome (kind : TokenKind) :
    (relationOf? kind).isSome = kind.isComparison := by
  cases kind <;> rfl

/-- A place in a stream of tokens, with the token there. -/
structure Parser where
  current : Token
  upcoming : TokenStream
  deriving DecidableEq

/-- A step of a parser. -/
abbrev Parse := EStateM Fault Parser

namespace Parser

def ofStream (stream : TokenStream) : Except Fault Parser :=
  match stream.next with
  | (.ok token, upcoming) => .ok ⟨token, upcoming⟩
  | (.error error, _) => .error (.lexical error)

def ofScanner (scanner : Scanner) : Except Fault Parser :=
  ofStream scanner.stream

/-- Moves to the next token; the token that was current is the result. -/
def advance : Parse Token := fun parser =>
  match parser.upcoming.next with
  | (.ok token, upcoming) => .ok parser.current ⟨token, upcoming⟩
  | (.error error, upcoming) => .error (.lexical error) ⟨parser.current, upcoming⟩

def refuse {α : Type} (expected : Expected) : Parse α := fun parser =>
  .error (.grammar expected parser.current) parser

def expect (kind : TokenKind) (expected : Expected) : Parse Token := fun parser =>
  if parser.current.kind = kind then advance parser else refuse expected parser

/-- Consumes the current token, which denotes the given value. -/
def accept {α : Type} (value : α) : Parse α := do
  let _ ← advance
  return value

/-- The literal that a token denotes, where the grammar asks for a literal. -/
def literalOf (token : Token) : Except Fault Literal :=
  match token.kind with
  | .number =>
    let value := (Numeral.ofPlainChars token.text.toList).nearest
    if value.isFinite then .ok (.number value)
    else .error (.lexical ⟨.numberOutOfRange token.text, token.position⟩)
  | .identifier | .text => .ok (.text token.text)
  | .ifWord | .thenWord | .andWord | .equal | .less | .more | .lessOrEqual | .moreOrEqual
  | .notEqual | .assign | .endOfInput => .error (.grammar .literal token)

def literal : Parse Literal := fun parser =>
  match literalOf parser.current with
  | .ok value => accept value parser
  | .error fault => .error fault parser

def relation : Parse Relation := fun parser =>
  match relationOf? parser.current.kind with
  | some relation => accept relation parser
  | none => refuse .comparison parser

def comparison : Parse Comparison := do
  let left ← expect .identifier .identifier
  let relation ← relation
  let right ← literal
  return ⟨left.text, relation, right⟩

/-! ## Steps move forward -/

/-- How many tokens are still to come. -/
def remaining (parser : Parser) : Nat :=
  parser.upcoming.tokens.length

/--
A step that succeeds does not go back, and takes a token from those to come unless it arrives at the
end of the text.
-/
def Advances {α : Type} (step : Parse α) : Prop :=
  ∀ (parser after : Parser) (result : α), step parser = .ok result after →
    after.remaining ≤ parser.remaining ∧
      (after.current.isEnd = false → after.remaining < parser.remaining)

theorem advances_advance : Advances advance := by
  intro parser after token h
  unfold advance at h
  split at h
  · next token' upcoming hnext =>
    simp only [EStateM.Result.ok.injEq] at h
    obtain ⟨-, rfl⟩ := h
    refine ⟨?_, fun more => ?_⟩
    · simpa [remaining, hnext] using parser.upcoming.tokens_length_next_le
    · have := @TokenStream.tokens_length_next_lt parser.upcoming token' (by rw [hnext]) more
      simpa [remaining, hnext] using this
  · simp at h

theorem Advances.map {α β : Type} {step : Parse α} (h : Advances step) (f : α → β) :
    Advances (do let result ← step; return f result) := by
  intro parser after result hrun
  simp only [bind, EStateM.bind, pure, EStateM.pure] at hrun
  cases hstep : step parser with
  | error => simp [hstep] at hrun
  | ok value middle =>
    simp only [hstep, EStateM.Result.ok.injEq] at hrun
    obtain ⟨-, rfl⟩ := hrun
    exact h _ _ _ hstep

theorem Advances.bind {α β : Type} {first : Parse α} {second : α → Parse β}
    (h₁ : Advances first) (h₂ : ∀ value, Advances (second value)) :
    Advances (first >>= second) := by
  intro parser after result hrun
  simp only [Bind.bind, EStateM.bind] at hrun
  cases hfirst : first parser with
  | error => simp [hfirst] at hrun
  | ok value middle =>
    simp only [hfirst] at hrun
    have hle := (h₁ _ _ _ hfirst).1
    have hsecond := h₂ value _ _ _ hrun
    exact ⟨Nat.le_trans hsecond.1 hle, fun more => Nat.lt_of_lt_of_le (hsecond.2 more) hle⟩

theorem advances_accept {α : Type} (value : α) : Advances (accept value) :=
  advances_advance.map fun _ => value

theorem advances_expect (kind : TokenKind) (expected : Expected) :
    Advances (expect kind expected) := by
  intro parser after token h
  unfold expect at h
  split at h
  · exact advances_advance _ _ _ h
  · simp [refuse] at h

theorem advances_literal : Advances literal := by
  intro parser after value h
  unfold literal at h
  split at h
  · exact advances_accept _ _ _ _ h
  · simp at h

theorem advances_relation : Advances relation := by
  intro parser after value h
  unfold relation at h
  split at h
  · exact advances_accept _ _ _ _ h
  · simp [refuse] at h

theorem advances_comparison : Advances comparison :=
  (advances_expect _ _).bind fun _ => advances_relation.bind fun _ => advances_literal.map _

/-! ## Rules -/

/-- Consumes one comparison, and further ones as long as the word between comparisons follows. -/
def condition : Parse (List Comparison) := fun parser =>
  match _hfirst : comparison parser with
  | .error fault stopped => .error fault stopped
  | .ok first after =>
    if _hand : after.current.kind = .andWord then
      match _hnext : advance after with
      | .error fault stopped => .error fault stopped
      | .ok _ next =>
        match condition next with
        | .error fault stopped => .error fault stopped
        | .ok others last => .ok (first :: others) last
    else .ok [first] after
termination_by parser => parser.remaining
decreasing_by
  have more : after.current.isEnd = false := by simp [Token.isEnd, _hand]
  exact Nat.lt_of_le_of_lt (advances_advance _ _ _ _hnext).1
    ((advances_comparison _ _ _ _hfirst).2 more)

/-- Consumes one rule and nothing after it. -/
def rule : Parse Rule := do
  let _ ← expect .ifWord .ifWord
  let condition ← condition
  let _ ← expect .thenWord .thenOrAnd
  let target ← expect .identifier .identifier
  let _ ← expect .assign .assignment
  let value ← literal
  let _ ← expect .endOfInput .endOfRule
  return ⟨condition, target.text, value⟩

end Parser

def Rule.ofStream (stream : TokenStream) : Except Fault Rule := do
  let parser ← Parser.ofStream stream
  match Parser.rule parser with
  | .ok rule _ => return rule
  | .error fault _ => throw fault

/-- The rule that a source spells. -/
def Rule.parse (source : String) : Except Fault Rule :=
  Rule.ofStream (Scanner.ofSource source).stream

end Rulebook
