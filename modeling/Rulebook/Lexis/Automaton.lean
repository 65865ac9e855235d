import Rulebook.Text.Characters

/-!
# The automaton of lexemes

A lexeme is read one character at a time. The automaton starts between lexemes, moves by the class
of each character, and reports that the lexeme ended just before a character or that no lexeme of
the language goes on with it. It sees characters only through their classes: every character has
exactly one, and so has the end of the text.
-/

namespace Rulebook.Lexis

/-! ## Classes of characters -/

/-- What a character can do in a lexeme. -/
inductive CharClass where
  /-- A letter of the rule language or an underscore. -/
  | letter
  /-- A decimal digit or a point. -/
  | digit
  /-- One of the characters that symbolic operators are made of. -/
  | operator
  /-- The minus sign, which can only open a number. -/
  | sign
  | blank
  | quote
  | finish
  /-- Any other character; it has a place inside a quoted text only. -/
  | other
  deriving DecidableEq

/-- A Latin letter, a Russian letter or an underscore. -/
def isLetter (c : Char) : Bool :=
  ('a' ≤ c && c ≤ 'z') || ('A' ≤ c && c ≤ 'Z') || ('а' ≤ c && c ≤ 'я') || ('А' ≤ c && c ≤ 'Я')
    || c == 'ё' || c == 'Ё' || c == '_'

def isDigitOrPoint (c : Char) : Bool :=
  c.isDigit || c == '.'

/-- One of `=`, `>`, `<` and `!`. -/
def isOperatorChar (c : Char) : Bool :=
  c == '=' || c == '>' || c == '<' || c == '!'

/-- The class of a character; `none` stands for the end of the text. -/
def CharClass.of : Option Char → CharClass
  | none => .finish
  | some c =>
    if isLetter c then .letter
    else if isDigitOrPoint c then .digit
    else if isOperatorChar c then .operator
    else if c == '-' then .sign
    else if c == '"' then .quote
    else if Text.isBlank c then .blank
    else .other

/-! ## States -/

/-- Where the reading of a lexeme stands. -/
inductive State where
  /-- Before the first character of a lexeme. -/
  | start
  /-- In a word: a letter, then letters, digits and points. -/
  | word
  /-- In a number: a digit, point or minus sign, then digits and points. -/
  | number
  | operator
  /-- Between the quotes of a quoted text. -/
  | quoted
  /-- After the closing quote of a quoted text. -/
  | closed
  /-- No lexeme goes on with the last character. -/
  | failed
  /-- The lexeme ended before the last character. -/
  | finished
  deriving DecidableEq

/-- The state after a character of the given class. -/
def State.next : State → CharClass → State
  | .start, .letter => .word
  | .start, .digit | .start, .sign => .number
  | .start, .operator => .operator
  | .start, .blank => .start
  | .start, .quote => .quoted
  | .start, .finish => .finished
  | .start, .other => .failed
  | .word, .letter | .word, .digit => .word
  | .word, .operator | .word, .blank | .word, .finish => .finished
  | .word, .sign | .word, .quote | .word, .other => .failed
  | .number, .digit => .number
  | .number, .operator | .number, .blank | .number, .finish => .finished
  | .number, .letter | .number, .sign | .number, .quote | .number, .other => .failed
  | .operator, .operator => .operator
  | .operator, .other => .failed
  | .operator, .letter | .operator, .digit | .operator, .sign | .operator, .blank
  | .operator, .quote | .operator, .finish => .finished
  | .quoted, .quote => .closed
  | .quoted, .finish => .failed
  | .quoted, .letter | .quoted, .digit | .quoted, .operator | .quoted, .sign | .quoted, .blank
  | .quoted, .other => .quoted
  | .closed, .operator | .closed, .blank | .closed, .finish => .finished
  | .closed, .letter | .closed, .digit | .closed, .sign | .closed, .quote
  | .closed, .other => .failed
  | .failed, _ | .finished, _ => .failed

/-- The end of the text ends every lexeme but a quoted text, which it cuts short. -/
theorem State.next_finish (state : State) :
    state.next .finish = .finished ∨ state.next .finish = .failed := by
  cases state <;> simp [State.next]

end Rulebook.Lexis
