import Rulebook.Proofs.Lexis.Reading
import Rulebook.Lexis.TokenStream

/-!
# The stream of a text

The stream of tokens that a scanner hands out, by the lexemes of its text, and the three ways to ask
for it.

* `ofText_gap`, `ofText_lexeme`: the stream of a text from the streams of its parts.
* `ofText_induction`: a property of all streams from white space, one lexeme in front, and failure.
* `next_stream`, `answer_stream`: a scanner answers as its stream does, and goes on as the stream
  goes on.
* `tokenize_eq`: the tokens of a source are the tokens of its stream, and the end token.
-/

namespace Rulebook.Lexis

/-! ## Tokens of lexemes -/

theorem Lexeme.length_spelling_pos (lexeme : Lexeme) : 0 < lexeme.spelling.length := by
  obtain ⟨c, rest, spelled, -⟩ := lexeme.opens
  rw [spelled]
  exact Nat.succ_pos _

theorem Lexeme.kind_ne_endOfInput (lexeme : Lexeme) : lexeme.kind ≠ .endOfInput := by
  cases lexeme with
  | word text h =>
    obtain ⟨first, rest, rfl, -⟩ := h
    exact (wordKind_ne (by simp)).2
  | number text h => exact nofun
  | symbol text kind h => exact (kinds_of_symbols (text, kind) h).2
  | quoted content h => exact nofun

@[simp] theorem Lexeme.isEnd_token (lexeme : Lexeme) (position : Nat) :
    (lexeme.token position).isEnd = false := by
  simp [Token.isEnd, token, lexeme.kind_ne_endOfInput]

theorem ReadToken.before_token (token : Token) (position : Nat) (after : List Char) :
    (ReadToken.before token position after).token = token := by
  cases after with
  | nil => rfl
  | cons c rest => simp only [ReadToken.before]; split <;> rfl

namespace TokenStream

/-! ## The stream of a text, by its first token -/

section Unfolding

variable {text : List Char} {position : Nat}

theorem ofText_failure {error : LexicalError} (h : readToken text position = .error error) :
    ofText text position = ⟨[], .failure error⟩ := by
  rw [ofText]
  split
  · next error' h' => rw [h, Except.error.injEq] at h'; rw [h']
  · next result h' => rw [h] at h'; cases h'

theorem ofText_end {result : ReadToken} (h : readToken text position = .ok result)
    (isEnd : result.token.isEnd = true) :
    ofText text position = ⟨[], .endOfInput result.token.position⟩ := by
  rw [ofText]
  split
  · next error h' => rw [h] at h'; cases h'
  · next result' h' =>
    rw [h, Except.ok.injEq] at h'
    subst h'
    exact dif_pos isEnd

theorem ofText_token {result : ReadToken} (h : readToken text position = .ok result)
    (more : result.token.isEnd = false) :
    ofText text position = push result.token (ofText result.rest result.position) := by
  rw [ofText]
  split
  · next error h' => rw [h] at h'; cases h'
  · next result' h' =>
    rw [h, Except.ok.injEq] at h'
    subst h'
    exact dif_neg (by simp [more])

/-- The stream depends on the first token and on nothing else of the text. -/
theorem ofText_congr {text' : List Char} {position' : Nat}
    (h : readToken text position = readToken text' position') :
    ofText text position = ofText text' position' := by
  cases hread : readToken text' position' with
  | error error => rw [ofText_failure (h.trans hread), ofText_failure hread]
  | ok result =>
    cases isEnd : result.token.isEnd with
    | true => rw [ofText_end (h.trans hread) isEnd, ofText_end hread isEnd]
    | false => rw [ofText_token (h.trans hread) isEnd, ofText_token hread isEnd]

end Unfolding

/-! ## The stream of a text, by its lexemes -/

theorem ofText_gap {gap : List Char} (h : IsGap gap) (text : List Char) (position : Nat) :
    ofText (gap ++ text) position = ofText text (position + gap.length) :=
  ofText_congr (readToken_gap h text position)

theorem ofText_nil (position : Nat) : ofText [] position = ⟨[], .endOfInput position⟩ :=
  ofText_end (readToken_nil position) rfl

/-- White space that was taken along with a token is missed by nobody. -/
theorem ofText_before (token : Token) (position : Nat) (after : List Char) :
    ofText (ReadToken.before token position after).rest
        (ReadToken.before token position after).position
      = ofText after position := by
  cases after with
  | nil => rfl
  | cons c rest =>
    by_cases blank : Text.isBlank c = true
    · simp only [ReadToken.before, blank, ↓reduceIte]
      exact (ofText_congr (readToken_blank blank rest position)).symm
    · simp only [ReadToken.before, blank, Bool.false_eq_true, ↓reduceIte]

theorem ofText_lexeme {lexeme : Lexeme} {after : List Char} (ends : lexeme.EndsBefore after)
    (position : Nat) :
    ofText (lexeme.spelling ++ after) position
      = push (lexeme.token position) (ofText after (position + lexeme.spelling.length)) := by
  rw [ofText_token (readToken_lexeme ends) (by rw [ReadToken.before_token, Lexeme.isEnd_token]),
    ofText_before, ReadToken.before_token]

/--
What holds of the stream of white space, is kept by one lexeme in front, and holds where no token
can be read, holds of the stream of every text.
-/
theorem ofText_induction {motive : List Char → Nat → TokenStream → Prop}
    (gap : ∀ text position, IsGap text →
      motive text position ⟨[], .endOfInput (position + text.length)⟩)
    (lexeme : ∀ (gap : List Char) (lexeme : Lexeme) (after : List Char) (position : Nat),
      IsGap gap → lexeme.EndsBefore after →
      motive after (position + gap.length + lexeme.spelling.length)
        (ofText after (position + gap.length + lexeme.spelling.length)) →
      motive (gap ++ (lexeme.spelling ++ after)) position
        (push (lexeme.token (position + gap.length))
          (ofText after (position + gap.length + lexeme.spelling.length))))
    (failure : ∀ text position error, readToken text position = .error error →
      motive text position ⟨[], .failure error⟩)
    (text : List Char) (position : Nat) : motive text position (ofText text position) := by
  induction hlength : text.length using Nat.strongRecOn generalizing text position with
  | _ length ih =>
    cases hread : readToken text position with
    | error error =>
      rw [ofText_failure hread]
      exact failure text position error hread
    | ok result =>
      rcases readToken_ok_cases hread with ⟨hgap, rfl⟩ | ⟨space, tail, rfl, hgap, hreads⟩
      · rw [ofText_end hread rfl]
        exact gap text position hgap
      · obtain ⟨first, after, rfl, ends, rfl⟩ := hreads
        rw [ofText_gap hgap, ofText_lexeme ends]
        refine lexeme space first after position hgap ends (ih after.length ?_ after _ rfl)
        have nonempty := first.length_spelling_pos
        rw [← hlength, List.length_append, List.length_append]
        omega

theorem exists_lexeme_of_mem_ofText (text : List Char) (position : Nat) :
    ∀ token ∈ (ofText text position).tokens,
      ∃ (lexeme : Lexeme) (place : Nat), token = lexeme.token place := by
  induction text, position using ofText_induction with
  | gap => simp
  | failure => simp
  | lexeme gap lexeme after position hgap ends ih =>
    intro token htoken
    rcases List.mem_cons.1 htoken with rfl | htoken
    · exact ⟨lexeme, _, rfl⟩
    · exact ih token htoken

theorem isEnd_of_mem_ofText (text : List Char) (position : Nat) :
    ∀ token ∈ (ofText text position).tokens, token.isEnd = false := by
  intro token htoken
  obtain ⟨lexeme, place, rfl⟩ := exists_lexeme_of_mem_ofText text position token htoken
  exact lexeme.isEnd_token place

/-- The end of a text is behind its last character. -/
theorem endOfInput_eq (text : List Char) (position : Nat) :
    ∀ {last : Nat}, (ofText text position).close = .endOfInput last →
      last = position + text.length := by
  induction text, position using ofText_induction with
  | gap text position hgap =>
    rintro last ⟨⟩
    rfl
  | failure text position error h => nofun
  | lexeme gap lexeme after position hgap ends ih =>
    intro last hclose
    rw [ih hclose, List.length_append, List.length_append]
    omega

end TokenStream

/-! ## Scanners and their streams -/

/-- The end token of a text repeats. -/
theorem readToken_of_isEnd {text : List Char} {position : Nat} {result : ReadToken}
    (h : readToken text position = .ok result) (isEnd : result.token.isEnd = true) :
    result = ⟨.endOfInput result.position, [], result.position⟩ := by
  rcases readToken_ok_cases h with ⟨-, rfl⟩ | ⟨gap, tail, -, -, lexeme, after, -, -, rfl⟩
  · rfl
  · rw [ReadToken.before_token, Lexeme.isEnd_token] at isEnd
    cases isEnd

/-- A scanner gives the next token of its stream, and its stream goes on. -/
theorem next_stream (scanner : Scanner) :
    (scanner.next.1, scanner.next.2.stream) = scanner.stream.next := by
  unfold Scanner.next Scanner.stream
  cases hfailure : scanner.failure with
  | some error => simp [hfailure, TokenStream.next, StreamEnd.result]
  | none =>
    cases hread : readToken scanner.rest scanner.position with
    | error error =>
      simp [TokenStream.ofText_failure hread, TokenStream.next, StreamEnd.result]
    | ok result =>
      cases isEnd : result.token.isEnd with
      | true =>
        have again := readToken_of_isEnd hread isEnd
        rw [TokenStream.ofText_end hread isEnd, again]
        simp only [TokenStream.ofText_nil, TokenStream.next, StreamEnd.result]
        rfl
      | false => rw [TokenStream.ofText_token hread isEnd, TokenStream.next_push]

theorem isEnd_of_mem_stream (scanner : Scanner) :
    ∀ token ∈ scanner.stream.tokens, token.isEnd = false := by
  unfold Scanner.stream
  cases scanner.failure with
  | some error => simp
  | none => exact TokenStream.isEnd_of_mem_ofText _ _

/-- What a scanner answers to the request with the given number, the first one being zero. -/
def Scanner.answer (scanner : Scanner) : Nat → TokenResult
  | 0 => scanner.next.1
  | request + 1 => scanner.next.2.answer request

def TokenStream.answer (stream : TokenStream) : Nat → TokenResult
  | 0 => stream.next.1
  | request + 1 => stream.next.2.answer request

theorem answer_stream (scanner : Scanner) (request : Nat) :
    scanner.answer request = scanner.stream.answer request := by
  induction request generalizing scanner with
  | zero => exact congrArg Prod.fst (next_stream scanner)
  | succ request ih =>
    have onward : scanner.next.2.stream = scanner.stream.next.2 :=
      congrArg Prod.snd (next_stream scanner)
    rw [Scanner.answer, TokenStream.answer, ih, onward]

/-- An end token is answered again and again. -/
theorem TokenStream.answer_succ_of_isEnd {stream : TokenStream}
    (inner : ∀ token ∈ stream.tokens, token.isEnd = false) {request : Nat} {token : Token}
    (h : stream.answer request = .ok token) (isEnd : token.isEnd = true) :
    stream.answer (request + 1) = .ok token := by
  induction request generalizing stream with
  | zero =>
    obtain ⟨_ | ⟨first, rest⟩, close⟩ := stream
    · exact h
    · cases h
      rw [inner token List.mem_cons_self] at isEnd
      cases isEnd
  | succ request ih =>
    rw [answer] at h ⊢
    refine ih (fun token htoken => ?_) h
    obtain ⟨_ | ⟨first, rest⟩, close⟩ := stream
    · exact inner token htoken
    · exact inner token (List.mem_cons_of_mem _ htoken)

/-- The results that a stream gives before it repeats itself. -/
def TokenStream.results (stream : TokenStream) : List TokenResult :=
  stream.tokens.map .ok ++ [stream.close.result]

theorem continues_close (close : StreamEnd) : close.result.continues = false := by
  cases close <;> rfl

theorem drain_of_iterate_none {scanner last : Scanner} (h : scanner.iterate = (none, last)) :
    scanner.drain = ([], last) := by
  rw [Scanner.drain]
  split
  · next last' h' => rw [h, Prod.mk.injEq] at h'; rw [h'.2]
  · next result after h' => rw [h] at h'; cases h'

theorem drain_of_iterate_some {scanner after : Scanner} {result : TokenResult}
    (h : scanner.iterate = (some result, after)) :
    scanner.drain = (result :: after.drain.1, after.drain.2) := by
  rw [Scanner.drain]
  split
  · next last h' => rw [h] at h'; cases h'
  · next result' after' h' =>
    rw [h, Prod.mk.injEq, Option.some.injEq] at h'
    rw [h'.1, h'.2]

theorem iterate_of_exhausted {scanner : Scanner} (h : scanner.exhausted = true) :
    scanner.iterate = (none, scanner) :=
  if_pos h

theorem iterate_of_fresh {scanner : Scanner} (h : scanner.exhausted = false) :
    scanner.iterate
      = (some scanner.next.1,
          { scanner.next.2 with exhausted := !scanner.next.1.continues }) := by
  unfold Scanner.iterate
  rw [h]
  rfl

/-- Iteration gives the results of the stream, and then stops. -/
theorem drain_stream {scanner : Scanner} (fresh : scanner.exhausted = false) :
    scanner.drain.1 = scanner.stream.results := by
  have hnext := next_stream scanner
  have hiterate := iterate_of_fresh fresh
  have hends := isEnd_of_mem_stream scanner
  induction htokens : scanner.stream.tokens generalizing scanner with
  | nil =>
    have stream : scanner.stream = ⟨[], scanner.stream.close⟩ := by rw [← htokens]
    rw [stream, TokenStream.next, Prod.mk.injEq] at hnext
    have stopped : scanner.next.1.continues = false := by
      rw [hnext.1]
      exact continues_close _
    rw [stopped, Bool.not_false] at hiterate
    rw [drain_of_iterate_some hiterate, drain_of_iterate_none (iterate_of_exhausted rfl), stream,
      hnext.1]
    rfl
  | cons token tokens ih =>
    have stream : scanner.stream = ⟨token :: tokens, scanner.stream.close⟩ := by rw [← htokens]
    rw [stream, TokenStream.next, Prod.mk.injEq] at hnext
    have more : token.isEnd = false := hends token (by rw [htokens]; exact List.mem_cons_self)
    have goes_on : scanner.next.1.continues = true := by
      rw [hnext.1]
      simp [TokenResult.continues, more]
    rw [goes_on, Bool.not_true] at hiterate
    have after : { scanner.next.2 with exhausted := false }.stream
        = ⟨tokens, scanner.stream.close⟩ := hnext.2
    rw [drain_of_iterate_some hiterate,
      ih rfl (next_stream _) (iterate_of_fresh rfl) (isEnd_of_mem_stream _) (by rw [after]),
      after, stream, hnext.1]
    rfl

/-! ## The tokens of a source -/

theorem mapM_results (tokens : List Token) (result : TokenResult) :
    (tokens.map Except.ok ++ [result]).mapM id = result.map (tokens ++ [·]) := by
  induction tokens with
  | nil => cases result <;> rfl
  | cons token tokens ih =>
    rw [List.map_cons, List.cons_append, List.mapM_cons, ih]
    cases result <;> rfl

/-- The stream of a source. -/
def sourceStream (source : String) : TokenStream :=
  TokenStream.ofText source.toList 0

theorem isEnd_of_mem_sourceStream (source : String) :
    ∀ token ∈ (sourceStream source).tokens, token.isEnd = false :=
  TokenStream.isEnd_of_mem_ofText source.toList 0

theorem endOfInput_sourceStream {source : String} {position : Nat}
    (h : (sourceStream source).close = .endOfInput position) : position = source.length := by
  rw [TokenStream.endOfInput_eq _ _ h, Nat.zero_add, String.length_toList]

theorem tokenize_eq (source : String) :
    tokenize source
      = (sourceStream source).close.result.map ((sourceStream source).tokens ++ [·]) := by
  unfold tokenize
  rw [drain_stream rfl]
  exact mapM_results _ _

/-- A source has tokens when its stream ends with the text. -/
theorem tokenize_eq_ok_iff {source : String} {tokens : List Token} :
    tokenize source = .ok tokens ↔
      ∃ inner, sourceStream source = ⟨inner, .endOfInput source.length⟩ ∧
        tokens = inner ++ [.endOfInput source.length] := by
  rw [tokenize_eq]
  cases hstream : sourceStream source with
  | mk inner close => cases close with
    | endOfInput position =>
      obtain rfl : position = source.length := endOfInput_sourceStream (by rw [hstream])
      simp [StreamEnd.result, Except.map, eq_comm]
    | failure error => simp [StreamEnd.result, Except.map]

end Rulebook.Lexis
