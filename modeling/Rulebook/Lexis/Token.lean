/-!
# Tokens and lexical errors

The words of a rule's text as the grammar sees them, and why a text does not split into them.
-/

namespace Rulebook.Lexis

/-! ## Tokens -/

/-- What a token is to the grammar. -/
inductive TokenKind where
  | number
  | identifier
  | text
  /-- The word that opens a rule. -/
  | ifWord
  /-- The word between the condition and the assignment. -/
  | thenWord
  /-- The word between two comparisons. -/
  | andWord
  | equal
  | less
  | more
  | lessOrEqual
  | moreOrEqual
  | notEqual
  | assign
  | endOfInput
  deriving DecidableEq

/-- The name of a token's kind in messages. -/
def TokenKind.name : TokenKind → String
  | .number => "Number"
  | .identifier => "Identifier"
  | .text => "Text"
  | .ifWord => "If"
  | .thenWord => "Then"
  | .andWord => "And"
  | .equal => "Equal"
  | .less => "Less"
  | .more => "More"
  | .lessOrEqual => "LessOrEqual"
  | .moreOrEqual => "MoreOrEqual"
  | .notEqual => "NotEqual"
  | .assign => "Assign"
  | .endOfInput => "EndOfInput"

/-- The kinds that can stand between an identifier and a literal in a condition. -/
def TokenKind.isComparison : TokenKind → Bool
  | .equal | .less | .more | .lessOrEqual | .moreOrEqual | .notEqual => true
  | .number | .identifier | .text | .ifWord | .thenWord | .andWord | .assign
  | .endOfInput => false

/-- A word of a rule's text with its place. -/
structure Token where
  kind : TokenKind
  /-- The characters of the token; those between the quotes for a quoted text. -/
  text : String
  /-- How many characters of the rule's text stand before the token. -/
  position : Nat
  deriving DecidableEq

/-- The token that stands for the end of the text, at the given place. -/
def Token.endOfInput (position : Nat) : Token :=
  ⟨.endOfInput, "", position⟩

def Token.isEnd (token : Token) : Bool :=
  token.kind == .endOfInput

@[simp] theorem Token.isEnd_endOfInput (position : Nat) :
    (Token.endOfInput position).isEnd = true := rfl

theorem Token.isEnd_iff {token : Token} : token.isEnd = true ↔ token.kind = .endOfInput := by
  simp [Token.isEnd]

/-! ## Errors -/

/-- What is wrong at one place of a rule's text. -/
inductive LexicalCause where
  /-- A character that can stand only inside quotes. -/
  | unknownCharacter (c : Char)
  /-- A character with which the lexeme read so far does not go on. -/
  | unexpectedCharacter (c : Char) (read : String)
  /-- The text ends before the closing quote. -/
  | unterminatedText (read : String)
  /-- The text ends where the lexeme read so far cannot end. -/
  | unexpectedEnd (read : String)
  /-- Digits, points and a sign that do not make a number. -/
  | malformedNumber (text : String)
  /-- Operator characters that do not make an operator. -/
  | unknownOperator (text : String)
  /-- A number beyond the largest finite value. -/
  | numberOutOfRange (text : String)
  deriving DecidableEq

structure LexicalError where
  cause : LexicalCause
  position : Nat
  deriving DecidableEq

def LexicalCause.message : LexicalCause → String
  | .unknownCharacter c => "unknown character '" ++ c.toString ++ "'"
  | .unexpectedCharacter c read =>
    "unexpected character '" ++ c.toString ++ "' after '" ++ read ++ "'"
  | .unterminatedText read => "unterminated text literal \"" ++ read
  | .unexpectedEnd read => "unexpected end of input after '" ++ read ++ "'"
  | .malformedNumber text => "malformed number '" ++ text ++ "'"
  | .unknownOperator text => "unknown operator '" ++ text ++ "'"
  | .numberOutOfRange text => "malformed or out-of-range number '" ++ text ++ "'"

end Rulebook.Lexis
