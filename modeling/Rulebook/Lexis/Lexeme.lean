import Rulebook.Lexis.Automaton
import Rulebook.Lexis.Vocabulary

/-!
# Reading one lexeme

`readToken` skips white space, runs the automaton over the characters that follow and makes a token
of the lexeme it ends with. White space that ends a lexeme is consumed with it; any other character
that ends a lexeme is left for the next one.

Main statement: a token other than the end of the text takes at least one character with it
(`readToken_rest_length`), so reading token after token comes to an end.
-/

namespace Rulebook.Lexis

/-- A token with the text that follows it and the place where that text starts. -/
structure ReadToken where
  token : Token
  rest : List Char
  position : Nat

/-- The token that a lexeme makes, by the state in which the lexeme ended. -/
def conclude (state : State) (text : String) (start : Nat) : Except LexicalError Token :=
  match state with
  | .start => .ok ⟨.endOfInput, text, start⟩
  | .closed => .ok ⟨.text, text, start⟩
  | .number =>
    if isNumeral text then .ok ⟨.number, text, start⟩
    else .error ⟨.malformedNumber text, start⟩
  | .operator =>
    match operatorKind? text with
    | some kind => .ok ⟨kind, text, start⟩
    | none => .error ⟨.unknownOperator text, start⟩
  | .word | .quoted | .failed | .finished => .ok ⟨wordKind text, text, start⟩

/-- Why no lexeme goes on with a character. -/
def refusal (c : Char) (text : String) : LexicalCause :=
  if CharClass.of (some c) = .other then .unknownCharacter c
  else .unexpectedCharacter c text

/-- Why no lexeme ends at the end of the text. -/
def refusalAtEnd (state : State) (text : String) : LexicalCause :=
  if state = .quoted then .unterminatedText text else .unexpectedEnd text

/--
Reads on in the given state. `read` holds the characters of the lexeme so far, the last one first
and the quotes left out; the lexeme started at `start`, and the remaining text at `position`.
-/
def readFrom (state : State) (read : List Char) (start position : Nat) :
    List Char → Except LexicalError ReadToken
  | [] =>
    let text := String.ofList read.reverse
    if state.next .finish = .finished then
      (conclude state text start).map fun token => ⟨token, [], position⟩
    else .error ⟨refusalAtEnd state text, position⟩
  | c :: rest =>
    let text := String.ofList read.reverse
    let cls := CharClass.of (some c)
    match state.next cls with
    | .failed => .error ⟨refusal c text, position⟩
    | .finished =>
      (conclude state text start).map fun token =>
        if cls = .blank then ⟨token, rest, position + 1⟩ else ⟨token, c :: rest, position⟩
    | .start => readFrom .start read (position + 1) (position + 1) rest
    | next => readFrom next (if cls = .quote then read else c :: read) start (position + 1) rest

/-- The first token of the text that starts at `position`. -/
def readToken (text : List Char) (position : Nat) : Except LexicalError ReadToken :=
  readFrom .start [] position position text

/-! ## Every token but the last takes characters with it -/

theorem readFrom_rest_length_le {state : State} {read : List Char} {start position : Nat}
    {text : List Char} {result : ReadToken}
    (h : readFrom state read start position text = .ok result) :
    result.rest.length ≤ text.length := by
  fun_induction readFrom state read start position text with
  | case1 state read start position text hfinish =>
    cases hc : conclude state text start with
    | error e => simp [hc, Except.map] at h
    | ok token => simp only [hc, Except.map, Except.ok.injEq] at h; subst h; simp
  | case2 => simp at h
  | case3 => simp at h
  | case4 state read start position c rest text cls hnext =>
    cases hc : conclude state text start with
    | error e => simp [hc, Except.map] at h
    | ok token =>
      simp only [hc, Except.map, Except.ok.injEq] at h
      subst h
      split <;> simp
  | case5 state read start position c rest cls hnext ih =>
    exact Nat.le_succ_of_le (ih h)
  | case6 state read start position c rest cls _ _ _ ih =>
    exact Nat.le_succ_of_le (ih h)

/-- Only the end of the text has the class `finish`. -/
theorem CharClass.of_some_ne_finish (c : Char) : CharClass.of (some c) ≠ .finish := by
  simp only [CharClass.of]
  repeat' split
  all_goals simp

/-- Between lexemes no character ends a lexeme. -/
theorem State.next_start_of_some_ne_finished (c : Char) :
    State.start.next (CharClass.of (some c)) ≠ .finished := by
  have := CharClass.of_some_ne_finish c
  cases h : CharClass.of (some c) <;> simp_all [State.next]

theorem readToken_rest_length {text : List Char} {position : Nat} {result : ReadToken}
    (h : readToken text position = .ok result) (more : result.token.isEnd = false) :
    result.rest.length < text.length := by
  unfold readToken readFrom at h
  cases text with
  | nil =>
    simp only [State.next, ↓reduceIte, conclude, Except.map, Except.ok.injEq] at h
    subst h
    simp [Token.isEnd] at more
  | cons c rest =>
    simp only at h
    split at h
    · simp at h
    · next hnext => exact absurd hnext (State.next_start_of_some_ne_finished c)
    · exact Nat.lt_succ_of_le (readFrom_rest_length_le h)
    · exact Nat.lt_succ_of_le (readFrom_rest_length_le h)

end Rulebook.Lexis
