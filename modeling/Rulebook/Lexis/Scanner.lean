import Rulebook.Lexis.Lexeme

/-!
# The scanner

A scanner hands out the tokens of a text one by one. It can be asked for the next token for ever:
after the end of the text it repeats the end token, and after a lexical error it repeats the error.
It can also be iterated, and then it stops after the end token or the error.
-/

namespace Rulebook.Lexis

/-- What a request for a token answers. -/
abbrev TokenResult := Except LexicalError Token

/-- Iteration goes on after this result. -/
def TokenResult.continues : TokenResult → Bool
  | .ok token => !token.isEnd
  | .error _ => false

/-- The reading position in a text. -/
structure Scanner where
  /-- The characters that no token has taken yet. -/
  rest : List Char
  position : Nat
  /-- The first lexical error, which every later request repeats. -/
  failure : Option LexicalError
  /-- Iteration has reached the end token or an error. -/
  exhausted : Bool

namespace Scanner

def ofText (text : List Char) : Scanner :=
  ⟨text, 0, none, false⟩

def ofSource (source : String) : Scanner :=
  ofText source.toList

def next (scanner : Scanner) : TokenResult × Scanner :=
  match scanner.failure with
  | some error => (.error error, scanner)
  | none =>
    match readToken scanner.rest scanner.position with
    | .ok ⟨token, rest, position⟩ =>
      (.ok token, ⟨rest, position, none, scanner.exhausted⟩)
    | .error error =>
      (.error error, ⟨scanner.rest, scanner.position, some error, scanner.exhausted⟩)

/-- One step of iteration: `none` once the end token or an error was handed out. -/
def iterate (scanner : Scanner) : Option TokenResult × Scanner :=
  if scanner.exhausted then (none, scanner)
  else
    let (result, after) := scanner.next
    (some result, ⟨after.rest, after.position, after.failure, !result.continues⟩)

/-- A bound on the steps of iteration that still answer. -/
def pending (scanner : Scanner) : Nat :=
  if scanner.exhausted then 0 else scanner.rest.length + 1

theorem pending_iterate {scanner after : Scanner} {result : TokenResult}
    (h : scanner.iterate = (some result, after)) : after.pending < scanner.pending := by
  unfold iterate at h
  split at h
  · simp at h
  · next hfresh =>
    simp only [Prod.mk.injEq, Option.some.injEq] at h
    obtain ⟨hresult, rfl⟩ := h
    simp only [pending, hfresh]
    unfold next at hresult ⊢
    cases hfail : scanner.failure with
    | some error => simp [TokenResult.continues]
    | none =>
      cases hread : readToken scanner.rest scanner.position with
      | error error => simp [TokenResult.continues]
      | ok read =>
        obtain ⟨token, rest, position⟩ := read
        simp only [TokenResult.continues, Bool.not_not]
        cases hend : token.isEnd with
        | true => simp
        | false => simpa using readToken_rest_length hread hend

/-- All the results that iteration still answers, and the scanner after them. -/
def drain (scanner : Scanner) : List TokenResult × Scanner :=
  match _h : scanner.iterate with
  | (none, last) => ([], last)
  | (some result, after) =>
    let (results, last) := after.drain
    (result :: results, last)
termination_by scanner.pending
decreasing_by exact pending_iterate _h

end Scanner

/-- The tokens of a source with the end token after them, or the first lexical error. -/
def tokenize (source : String) : Except LexicalError (List Token) :=
  (Scanner.ofSource source).drain.1.mapM id

end Rulebook.Lexis
