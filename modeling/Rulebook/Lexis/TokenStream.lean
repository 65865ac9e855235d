import Rulebook.Lexis.Scanner

/-!
# Streams of tokens

What a scanner will answer from now on, as a value: finitely many tokens, and then the end of the
text or a lexical error, which repeats for ever.
-/

namespace Rulebook.Lexis

/-- What comes after the tokens of a stream. -/
inductive StreamEnd where
  | endOfInput (position : Nat)
  | failure (error : LexicalError)
  deriving DecidableEq

/-- What every request answers from here on. -/
def StreamEnd.result : StreamEnd → TokenResult
  | .endOfInput position => .ok (.endOfInput position)
  | .failure error => .error error

structure TokenStream where
  tokens : List Token
  close : StreamEnd
  deriving DecidableEq

namespace TokenStream

def next : TokenStream → TokenResult × TokenStream
  | ⟨[], close⟩ => (close.result, ⟨[], close⟩)
  | ⟨token :: tokens, close⟩ => (.ok token, ⟨tokens, close⟩)

def push (token : Token) (stream : TokenStream) : TokenStream :=
  ⟨token :: stream.tokens, stream.close⟩

/-- The tokens of the text that starts at `position`. -/
def ofText (text : List Char) (position : Nat) : TokenStream :=
  match _h : readToken text position with
  | .error error => ⟨[], .failure error⟩
  | .ok read =>
    if _hend : read.token.isEnd then ⟨[], .endOfInput read.token.position⟩
    else push read.token (ofText read.rest read.position)
termination_by text.length
decreasing_by exact readToken_rest_length _h (by simpa using _hend)

@[simp] theorem next_push (token : Token) (stream : TokenStream) :
    (push token stream).next = (.ok token, stream) := rfl

theorem tokens_length_next_le (stream : TokenStream) :
    stream.next.2.tokens.length ≤ stream.tokens.length := by
  obtain ⟨tokens, close⟩ := stream
  cases tokens <;> simp [next]

/-- A token that does not stand for the end of the text was taken from the stream. -/
theorem tokens_length_next_lt {stream : TokenStream} {token : Token}
    (h : stream.next.1 = .ok token) (more : token.isEnd = false) :
    stream.next.2.tokens.length < stream.tokens.length := by
  obtain ⟨tokens, close⟩ := stream
  cases tokens with
  | cons => simp [next]
  | nil =>
    cases close with
    | failure => simp [next, StreamEnd.result] at h
    | endOfInput position =>
      simp only [next, StreamEnd.result, Except.ok.injEq] at h
      subst h
      simp at more

end TokenStream

/-- What the scanner answers from now on. -/
def Scanner.stream (scanner : Scanner) : TokenStream :=
  match scanner.failure with
  | some error => ⟨[], .failure error⟩
  | none => TokenStream.ofText scanner.rest scanner.position

end Rulebook.Lexis
