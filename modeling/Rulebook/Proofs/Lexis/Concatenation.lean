import Rulebook.Proofs.Lexis.Stream

/-!
# Sources one behind the other

White space ends whatever stands before it, so what is read behind it does not depend on what was
read before. The tokens of two sources with a white space character between them are those of the
first source and, moved to their new places, those of the second (`tokenize_append_blank`).

Two facts about the reader carry this. It reads the same at every place
(`TokenStream.ofText_shift`), so the part of a source that starts at one of its tokens has the
tokens of the source from there on (`sourceStream_drop`). And it decides about an error where the
error is, so text behind the error changes nothing (`readToken_append_of_error`), unless a quoted
text is open at the end: white space does not close it.
-/

namespace Rulebook.Lexis

/-! ## Places moved by an offset -/

def Token.shift (offset : Nat) (token : Token) : Token :=
  { token with position := token.position + offset }

/-- The same error further on: its cause, and with it its message, stays. -/
def LexicalError.shift (offset : Nat) (error : LexicalError) : LexicalError :=
  { error with position := error.position + offset }

def ReadToken.shift (offset : Nat) (read : ReadToken) : ReadToken :=
  { read with token := read.token.shift offset, position := read.position + offset }

def StreamEnd.shift (offset : Nat) : StreamEnd → StreamEnd
  | .endOfInput position => .endOfInput (position + offset)
  | .failure error => .failure (error.shift offset)

def TokenStream.shift (offset : Nat) (stream : TokenStream) : TokenStream :=
  ⟨stream.tokens.map (Token.shift offset), stream.close.shift offset⟩

/-- What was read, or the error, at the place that is further on. -/
def shiftOutcome {α : Type} (move : Nat → α → α) (offset : Nat) :
    Except LexicalError α → Except LexicalError α
  | .ok value => .ok (move offset value)
  | .error error => .error (error.shift offset)

/-! ## Reading at another place -/

theorem conclude_shift (state : State) (text : String) (start offset : Nat) :
    conclude state text (start + offset)
      = shiftOutcome Token.shift offset (conclude state text start) := by
  unfold conclude
  split
  · rfl
  · rfl
  · split <;> rfl
  · split <;> rfl
  all_goals rfl

theorem ReadToken.before_shift (token : Token) (position offset : Nat) (after : List Char) :
    before (token.shift offset) (position + offset) after
      = (before token position after).shift offset := by
  cases after with
  | nil => rfl
  | cons c rest =>
    simp only [before]
    split
    · simp only [shift, Nat.add_right_comm]
    · rfl

section

variable {state : State} {read : List Char} {start position : Nat}

theorem readFrom_shift_of_finish {text : List Char}
    (h : state.next (CharClass.of text.head?) = .finished) (offset : Nat) :
    readFrom state read (start + offset) (position + offset) text
      = shiftOutcome ReadToken.shift offset (readFrom state read start position text) := by
  rw [readFrom_finish h, readFrom_finish h, conclude_shift]
  cases conclude state (String.ofList read.reverse) start with
  | error error => rfl
  | ok token => exact congrArg Except.ok (ReadToken.before_shift token position offset text)

theorem readFrom_shift (text : List Char) (offset : Nat) :
    readFrom state read (start + offset) (position + offset) text
      = shiftOutcome ReadToken.shift offset (readFrom state read start position text) := by
  induction state, read, start, position, text using readFrom_induction with
  | finish hfinish => exact readFrom_shift_of_finish hfinish offset
  | fail hfail =>
    rw [readFrom_fail hfail, readFrom_fail hfail]
    rfl
  | skip hskip ih => rw [readFrom_skip hskip, readFrom_skip hskip, ← ih, Nat.add_right_comm]
  | next hnext inside ih =>
    rw [readFrom_next hnext inside, readFrom_next hnext inside, ← ih, Nat.add_right_comm]

end

theorem readToken_shift (text : List Char) (position offset : Nat) :
    readToken text (position + offset)
      = shiftOutcome ReadToken.shift offset (readToken text position) :=
  readFrom_shift text offset

/-- The stream of a text further on is the same stream with its places moved. -/
theorem TokenStream.ofText_shift (text : List Char) (position offset : Nat) :
    ofText text (position + offset) = (ofText text position).shift offset := by
  induction text, position using ofText_induction with
  | gap text position hgap =>
    have := ofText_gap hgap [] (position + offset)
    rw [List.append_nil, ofText_nil] at this
    rw [this, Nat.add_right_comm]
    rfl
  | lexeme gap lexeme after position hgap ends ih =>
    rw [ofText_gap hgap, ofText_lexeme ends, Nat.add_right_comm position offset,
      Nat.add_right_comm _ offset, ih]
    rfl
  | failure text position error h =>
    have moved := readToken_shift text position offset
    rw [h] at moved
    rw [ofText_failure moved]
    rfl

/-- From one of its tokens on, a text has the tokens that follow, at the same places. -/
theorem TokenStream.ofText_of_append (text : List Char) (position : Nat) :
    ∀ {front back : List Token} {token : Token},
      (ofText text position).tokens = front ++ token :: back →
      ∃ before after, text = before ++ after ∧ token.position = position + before.length ∧
        ofText after token.position = ⟨token :: back, (ofText text position).close⟩ := by
  induction text, position using ofText_induction with
  | gap => simp
  | failure => simp
  | lexeme gap lexeme after position hgap ends ih =>
    intro front back token h
    cases front with
    | nil =>
      obtain ⟨rfl, rfl⟩ := List.cons.inj h
      exact ⟨gap, lexeme.spelling ++ after, rfl, rfl, ofText_lexeme ends _⟩
    | cons first front =>
      obtain ⟨before, after', rfl, place, stream⟩ := ih (List.cons.inj h).2
      refine ⟨gap ++ (lexeme.spelling ++ before), after', by simp, ?_, stream⟩
      rw [place, List.length_append, List.length_append, Nat.add_assoc, Nat.add_assoc]

/-! ## Errors before the end -/

/-- A quote was opened and not closed. -/
def LexicalError.IsUnterminated (error : LexicalError) : Prop :=
  ∃ read, error.cause = .unterminatedText read

section

variable {state : State} {read : List Char} {start position : Nat}

/-- White space ends what the end of the text ends, unless nothing was opened. -/
theorem State.next_blank_of_next_finish (h : state.next .finish = .finished)
    (opened : state ≠ .start) : state.next .blank = .finished := by
  cases state with
  | start => exact absurd rfl opened
  | word | number | operator | closed => rfl
  | quoted | failed | finished => cases h

/-- Only a quoted text is cut short by the end of the text. -/
theorem State.eq_quoted_of_next_finish (h : state.next .finish = .failed)
    (reading : state ≠ .failed ∧ state ≠ .finished) : state = .quoted := by
  cases state with
  | quoted => rfl
  | failed => exact absurd rfl reading.1
  | finished => exact absurd rfl reading.2
  | start | word | number | operator | closed => cases h

theorem readFrom_append_of_error {text : List Char} {error : LexicalError}
    (h : readFrom state read start position text = .error error)
    (terminated : ¬ error.IsUnterminated) (reading : state ≠ .failed ∧ state ≠ .finished)
    {blank : Char} (hblank : Text.isBlank blank = true) (rest : List Char) :
    readFrom state read start position (text ++ blank :: rest) = .error error := by
  -- On the characters of the text both runs are the same; they can part at its end only.
  induction text generalizing state read start position with
  | nil =>
    rcases State.next_finish state with finish | fail
    · rw [readFrom_eq_error_iff finish] at h
      have opened : state ≠ .start := by
        rintro rfl
        cases h
      have ends := State.next_blank_of_next_finish finish opened
      rw [← of_eq_blank_iff.2 hblank] at ends
      rw [List.nil_append]
      exact (readFrom_eq_error_iff ends).2 h
    · obtain rfl := State.eq_quoted_of_next_finish fail reading
      rw [readFrom_fail fail] at h
      cases h
      exact absurd ⟨_, rfl⟩ terminated
  | cons c tail ih =>
    rw [List.cons_append]
    cases hnext : state.next (CharClass.of (some c)) with
    | finished =>
      rw [readFrom_eq_error_iff hnext] at h
      exact (readFrom_eq_error_iff hnext).2 h
    | failed =>
      rw [readFrom_fail hnext] at h ⊢
      exact h
    | start =>
      rw [readFrom_skip hnext] at h ⊢
      exact ih h ⟨nofun, nofun⟩
    | word | number | operator | quoted | closed =>
      rw [readFrom_next hnext rfl] at h ⊢
      exact ih h ⟨nofun, nofun⟩

end

/-- Text behind white space changes no error, unless a quoted text is open there. -/
theorem readToken_append_of_error {text : List Char} {position : Nat} {error : LexicalError}
    (h : readToken text position = .error error) (terminated : ¬ error.IsUnterminated)
    {blank : Char} (hblank : Text.isBlank blank = true) (rest : List Char) :
    readToken (text ++ blank :: rest) position = .error error :=
  readFrom_append_of_error h terminated ⟨nofun, nofun⟩ hblank rest

/-! ## Streams of texts one behind the other -/

theorem Lexeme.endsBefore_append {lexeme : Lexeme} {after : List Char}
    (h : lexeme.EndsBefore after) {blank : Char} (hblank : Text.isBlank blank = true)
    (rest : List Char) : lexeme.EndsBefore (after ++ blank :: rest) := by
  cases after with
  | nil => exact lexeme.endsBefore_blank hblank rest
  | cons c after => exact h

namespace TokenStream

section

variable {blank : Char} (hblank : Text.isBlank blank = true) (rest : List Char)

include hblank

/-- Behind a text that has tokens to its end, reading goes on as if it started there. -/
theorem ofText_append_of_end (text : List Char) (position : Nat) :
    ∀ {last : Nat}, (ofText text position).close = .endOfInput last →
      ofText (text ++ blank :: rest) position
        = ⟨(ofText text position).tokens ++ (ofText rest (last + 1)).tokens,
            (ofText rest (last + 1)).close⟩ := by
  induction text, position using ofText_induction with
  | gap text position hgap =>
    rintro last ⟨⟩
    have gap : IsGap (text ++ [blank]) := by
      intro c hc
      rcases List.mem_append.1 hc with hc | hc
      · exact hgap c hc
      · exact List.mem_singleton.1 hc ▸ hblank
    rw [List.append_cons, ofText_gap gap, List.length_append, ← Nat.add_assoc]
    rfl
  | failure text position error h => nofun
  | lexeme gap lexeme after position hgap ends ih =>
    intro last hclose
    have ends' := lexeme.endsBefore_append ends hblank rest
    rw [List.append_assoc, List.append_assoc, ofText_gap hgap, ofText_lexeme ends', ih hclose]
    rfl

/-- Behind an error nothing is read, unless a quoted text is open. -/
theorem ofText_append_of_failure (text : List Char) (position : Nat) :
    ∀ {error : LexicalError}, (ofText text position).close = .failure error →
      ¬ error.IsUnterminated →
      ofText (text ++ blank :: rest) position = ofText text position := by
  induction text, position using ofText_induction with
  | gap text position hgap => nofun
  | failure text position error h =>
    rintro error' ⟨⟩ terminated
    exact ofText_failure (readToken_append_of_error h terminated hblank rest)
  | lexeme gap lexeme after position hgap ends ih =>
    intro error hclose terminated
    have ends' := lexeme.endsBefore_append ends hblank rest
    rw [List.append_assoc, List.append_assoc, ofText_gap hgap, ofText_lexeme ends',
      ih hclose terminated]

end

end TokenStream

/-! ## Main statement -/

theorem tokenize_eq_error_iff {source : String} {error : LexicalError} :
    tokenize source = .error error ↔ (sourceStream source).close = .failure error := by
  rw [tokenize_eq]
  cases (sourceStream source).close with
  | endOfInput position => exact ⟨nofun, nofun⟩
  | failure error' => simp [StreamEnd.result, Except.map]

/-- The part of a source that starts at one of its tokens. -/
theorem sourceStream_drop {source : String} {front back : List Token} {token : Token}
    (h : (sourceStream source).tokens = front ++ token :: back) :
    (sourceStream (String.ofList (source.toList.drop token.position))).shift token.position
      = ⟨token :: back, (sourceStream source).close⟩ := by
  obtain ⟨before, after, chars, place, stream⟩ := TokenStream.ofText_of_append _ _ h
  rw [Nat.zero_add] at place
  have ending : source.toList.drop token.position = after := by
    rw [chars, place, List.drop_left]
  rw [sourceStream, ← TokenStream.ofText_shift, String.toList_ofList, ending, Nat.zero_add]
  exact stream

/-- A source that goes on, behind some tokens, as another source does further on. -/
theorem tokenize_of_shift {source second : String} {inner : List Token} {offset : Nat}
    (h : sourceStream source
      = ⟨inner ++ ((sourceStream second).shift offset).tokens,
          ((sourceStream second).shift offset).close⟩) :
    tokenize source
      = shiftOutcome (fun offset others => inner ++ others.map (Token.shift offset)) offset
          (tokenize second) := by
  rw [tokenize_eq, tokenize_eq, h]
  cases hclose : (sourceStream second).close with
  | endOfInput position =>
    simp [TokenStream.shift, StreamEnd.shift, StreamEnd.result, Except.map, shiftOutcome, hclose,
      Token.shift, Token.endOfInput]
  | failure error =>
    simp [TokenStream.shift, StreamEnd.shift, StreamEnd.result, Except.map, shiftOutcome, hclose]

/--
**Sources one behind the other.** Let a white space character stand between two sources. If the
first one has tokens, the whole has these, less the end token, and behind them the tokens of the
second source, moved by what stands before it; where the second source has an error instead, the
whole has the same error, moved as far. If the first source has an error, the whole has the very
same error, unless it is a quoted text that is not closed.
-/
theorem tokenize_append_blank (first second : String) {blank : Char}
    (h : Text.isBlank blank = true) :
    let joined := first.push blank ++ second
    let offset := first.length + 1
    (∀ tokens, tokenize first = .ok tokens →
      ∃ inner, tokens = inner ++ [.endOfInput first.length] ∧
        (∀ others, tokenize second = .ok others →
          tokenize joined = .ok (inner ++ others.map (Token.shift offset))) ∧
        (∀ error, tokenize second = .error error →
          tokenize joined = .error (error.shift offset))) ∧
    (∀ error, tokenize first = .error error → ¬ error.IsUnterminated →
      tokenize joined = .error error) := by
  intro joined offset
  have chars : joined.toList = first.toList ++ blank :: second.toList := by
    simp [joined]
  constructor
  · intro tokens htokens
    obtain ⟨inner, hfirst, rfl⟩ := tokenize_eq_ok_iff.1 htokens
    have close : (TokenStream.ofText first.toList 0).close = .endOfInput first.length :=
      congrArg TokenStream.close hfirst
    have moved : TokenStream.ofText second.toList offset = (sourceStream second).shift offset := by
      rw [sourceStream, ← TokenStream.ofText_shift, Nat.zero_add]
    have stream : sourceStream joined
        = ⟨inner ++ ((sourceStream second).shift offset).tokens,
            ((sourceStream second).shift offset).close⟩ := by
      rw [sourceStream, chars, TokenStream.ofText_append_of_end h second.toList _ _ close, moved,
        ← sourceStream, hfirst]
    have outcome := tokenize_of_shift stream
    refine ⟨inner, rfl, fun others hothers => ?_, fun error herror => ?_⟩
    · rw [outcome, hothers]
      rfl
    · rw [outcome, herror]
      rfl
  · intro error herror terminated
    have close := tokenize_eq_error_iff.1 herror
    rw [tokenize_eq_error_iff, sourceStream, chars,
      TokenStream.ofText_append_of_failure h second.toList _ _ close terminated]
    exact close

/-- An em space ends the number of the first source; the second source has an error. -/
theorem tokenize_append_blank_unknown :
    let first := "age>=30"
    let second := "and rate ? 1"
    let tokens : List Token :=
      [⟨.identifier, "age", 0⟩, ⟨.moreOrEqual, ">=", 3⟩, ⟨.number, "30", 5⟩, .endOfInput 7]
    Text.isBlank '\u2003' = true ∧ tokenize first = .ok tokens ∧
      tokenize second = .error ⟨.unknownCharacter '?', 9⟩ ∧
      tokenize (first.push '\u2003' ++ second) = .error ⟨.unknownCharacter '?', 17⟩ := by
  intro first second tokens
  have blank : Text.isBlank '\u2003' = true := by decide
  have read : tokenize first = .ok tokens :=
    tokenize_eq_ok_iff.2 ⟨tokens.dropLast, by decide +kernel, by decide +kernel⟩
  have failed : tokenize second = .error ⟨.unknownCharacter '?', 9⟩ :=
    tokenize_eq_error_iff.2 (by decide +kernel)
  have place : LexicalError.shift (first.length + 1) ⟨.unknownCharacter '?', 9⟩
      = ⟨.unknownCharacter '?', 17⟩ := by
    decide +kernel
  obtain ⟨inner, -, -, moved⟩ := (tokenize_append_blank first second blank).1 tokens read
  exact ⟨blank, read, failed, place ▸ moved _ failed⟩

end Rulebook.Lexis
