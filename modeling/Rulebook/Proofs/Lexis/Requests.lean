import Rulebook.Proofs.Lexis.Stream

/-!
# Requests and iteration

A scanner can be asked for its next token, and it can be iterated. Both give the results of its
stream: requests repeat the last one for ever, and iteration stops behind it
(`scanner_repeats_last`).

Two groups of facts carry this.

* Where tokens and errors stand: `tokens_length_le`, `pairwise_position`, `error_position_le` follow
  a text lexeme by lexeme.
* What is left of a stream after some requests: `Scanner.stream_after`, and with it
  `TokenStream.getElem?_results` and `TokenStream.results_drop`.
-/

namespace Rulebook.Lexis

/-! ## Places -/

section

variable {state : State} {read : List Char} {start position : Nat} {error : LexicalError}

/-- What is wrong with a whole lexeme is reported where the lexeme starts. -/
theorem position_of_conclude {text : String} (h : conclude state text start = .error error) :
    error.position = start := by
  unfold conclude at h
  split at h
  · cases h
  · cases h
  · split at h
    · cases h
    · cases h
      rfl
  · split at h
    · cases h
    · cases h
      rfl
  all_goals cases h

/-- No error is reported behind the end of the text. -/
theorem readFrom_error_position_le {text : List Char} (started : start ≤ position)
    (h : readFrom state read start position text = .error error) :
    error.position ≤ position + text.length := by
  induction state, read, start, position, text using readFrom_induction with
  | finish hfinish =>
    rw [readFrom_eq_error_iff hfinish] at h
    have place := position_of_conclude h
    omega
  | fail hfail =>
    rw [readFrom_fail hfail] at h
    cases h
    exact Nat.le_add_right _ _
  | skip hskip ih =>
    rw [readFrom_skip hskip] at h
    have bound := ih (Nat.le_refl _) h
    rw [List.length_cons]
    omega
  | next hnext inside ih =>
    rw [readFrom_next hnext inside] at h
    have bound := ih (Nat.le_succ_of_le started) h
    rw [List.length_cons]
    omega

end

namespace TokenStream

/-- Every token takes at least one character. -/
theorem tokens_length_le (text : List Char) (position : Nat) :
    (ofText text position).tokens.length ≤ text.length := by
  induction text, position using ofText_induction with
  | gap => exact Nat.zero_le _
  | failure => exact Nat.zero_le _
  | lexeme gap lexeme after position hgap ends ih =>
    have nonempty := lexeme.length_spelling_pos
    simp only [push, List.length_cons, List.length_append]
    omega

theorem le_position_of_mem (text : List Char) (position : Nat) :
    ∀ token ∈ (ofText text position).tokens, position ≤ token.position := by
  induction text, position using ofText_induction with
  | gap => exact nofun
  | failure => exact nofun
  | lexeme gap lexeme after position hgap ends ih =>
    intro token htoken
    rcases List.mem_cons.1 htoken with rfl | htoken
    · exact Nat.le_add_right _ _
    · have later := ih token htoken
      omega

/-- Tokens stand in the order of their places, no two at one place. -/
theorem pairwise_position (text : List Char) (position : Nat) :
    (ofText text position).tokens.Pairwise
      fun first second => first.position < second.position := by
  induction text, position using ofText_induction with
  | gap => exact .nil
  | failure => exact .nil
  | lexeme gap lexeme after position hgap ends ih =>
    refine .cons (fun token htoken => ?_) ih
    have nonempty := lexeme.length_spelling_pos
    have later := le_position_of_mem after _ token htoken
    have place : (lexeme.token (position + gap.length)).position = position + gap.length := rfl
    omega

theorem error_position_le (text : List Char) (position : Nat) :
    ∀ {error : LexicalError}, (ofText text position).close = .failure error →
      error.position ≤ position + text.length := by
  induction text, position using ofText_induction with
  | gap => exact nofun
  | failure text position error h =>
    rintro _ ⟨⟩
    exact readFrom_error_position_le (Nat.le_refl _) h
  | lexeme gap lexeme after position hgap ends ih =>
    intro error hclose
    have bound := ih hclose
    simp only [List.length_append]
    omega

/-! ## Requests -/

/-- The stream behind the given number of requests. -/
def drop (count : Nat) (stream : TokenStream) : TokenStream :=
  ⟨stream.tokens.drop count, stream.close⟩

theorem next_eq_drop (stream : TokenStream) : stream.next.2 = stream.drop 1 := by
  obtain ⟨_ | ⟨token, tokens⟩, close⟩ := stream <;> rfl

theorem drop_drop (stream : TokenStream) (first second : Nat) :
    (stream.drop first).drop second = stream.drop (first + second) := by
  rw [drop, drop, List.drop_drop]
  rfl

/-- An error leaves the stream where it is. -/
theorem eq_of_next_error {stream after : TokenStream} {error : LexicalError}
    (h : stream.next = (.error error, after)) : after = stream := by
  obtain ⟨_ | ⟨token, tokens⟩, close⟩ := stream
  · exact (congrArg Prod.snd h).symm
  · cases h

/-- Requests get the results one after the other, and the last one again and again. -/
theorem getElem?_results (stream : TokenStream) (request : Nat) :
    stream.results[min request stream.tokens.length]? = some (stream.answer request) := by
  induction request generalizing stream with
  | zero =>
    obtain ⟨_ | ⟨token, tokens⟩, close⟩ := stream <;> simp [results, answer, next]
  | succ request ih =>
    rw [answer, ← ih]
    obtain ⟨_ | ⟨token, tokens⟩, close⟩ := stream
    · simp [results, next]
    · simp [results, next, Nat.succ_min_succ]

theorem close_of_answer_error {stream : TokenStream} {request : Nat} {error : LexicalError}
    (h : stream.answer request = .error error) : stream.close = .failure error := by
  have result := List.mem_of_getElem? (stream.getElem?_results request)
  rw [h, results, List.mem_append, List.mem_singleton] at result
  rcases result with result | result
  · obtain ⟨token, -, h⟩ := List.mem_map.1 result
    cases h
  · cases hclose : stream.close with
    | endOfInput position => rw [hclose] at result; cases result
    | failure error' => rw [hclose] at result; cases result; rfl

/-- Behind some requests, the results that are left; the last one is always left. -/
theorem results_drop (stream : TokenStream) (count : Nat) :
    (stream.drop count).results = stream.results.drop (min count stream.tokens.length) := by
  have front : stream.tokens.drop (min count stream.tokens.length) = stream.tokens.drop count := by
    rcases Nat.le_total count stream.tokens.length with le | le
    · rw [Nat.min_eq_left le]
    · rw [Nat.min_eq_right le, List.drop_length, List.drop_of_length_le le]
  rw [results, results, drop,
    List.drop_append_of_le_length (by rw [List.length_map]; exact Nat.min_le_right _ _),
    ← List.map_drop, front]

end TokenStream

namespace Scanner

/-- The scanner behind the given number of requests. -/
def after (scanner : Scanner) : Nat → Scanner
  | 0 => scanner
  | count + 1 => scanner.next.2.after count

theorem after_succ (scanner : Scanner) (count : Nat) :
    scanner.after (count + 1) = (scanner.after count).next.2 := by
  induction count generalizing scanner with
  | zero => rfl
  | succ count ih => exact ih scanner.next.2

theorem answer_eq (scanner : Scanner) (request : Nat) :
    scanner.answer request = (scanner.after request).next.1 := by
  induction request generalizing scanner with
  | zero => rfl
  | succ request ih => exact ih scanner.next.2

theorem stream_after (scanner : Scanner) (count : Nat) :
    (scanner.after count).stream = scanner.stream.drop count := by
  induction count generalizing scanner with
  | zero => rfl
  | succ count ih =>
    have onward : scanner.next.2.stream = scanner.stream.next.2 :=
      congrArg Prod.snd (next_stream scanner)
    rw [after, ih, onward, TokenStream.next_eq_drop, TokenStream.drop_drop, Nat.add_comm]

/-- Requests do not count as iteration. -/
theorem exhausted_next (scanner : Scanner) : scanner.next.2.exhausted = scanner.exhausted := by
  unfold next
  split
  · rfl
  · split <;> rfl

theorem exhausted_after (scanner : Scanner) (count : Nat) :
    (scanner.after count).exhausted = scanner.exhausted := by
  induction count generalizing scanner with
  | zero => rfl
  | succ count ih => rw [after, ih, exhausted_next]

/-! ## Iteration -/

/-- What the step of iteration with the given number answers, the first one being zero. -/
def iteration (scanner : Scanner) : Nat → Option TokenResult
  | 0 => scanner.iterate.1
  | step + 1 => scanner.iterate.2.iteration step

/-- Iteration that has stopped does not start again. -/
theorem iteration_of_exhausted {scanner : Scanner} (h : scanner.exhausted = true) (step : Nat) :
    scanner.iteration step = none := by
  induction step with
  | zero => rw [iteration, iterate_of_exhausted h]
  | succ step ih => rw [iteration, iterate_of_exhausted h, ih]

theorem exhausted_of_iterate_none {scanner last : Scanner} (h : scanner.iterate = (none, last)) :
    last.exhausted = true := by
  cases exhausted : scanner.exhausted with
  | true =>
    rw [iterate_of_exhausted exhausted, Prod.mk.injEq] at h
    rw [← h.2, exhausted]
  | false =>
    rw [iterate_of_fresh exhausted] at h
    cases h

theorem exhausted_drain (scanner : Scanner) : scanner.drain.2.exhausted = true := by
  fun_induction drain scanner with
  | case1 scanner last h => exact exhausted_of_iterate_none h
  | case2 scanner result after h results last hdrain ih =>
    rw [hdrain] at ih
    exact ih

/-- Iteration gives what requests before it have left over. -/
theorem drain_after {scanner : Scanner} (fresh : scanner.exhausted = false) (count : Nat) :
    (scanner.after count).drain.1
      = scanner.stream.results.drop (min count scanner.stream.tokens.length) := by
  rw [drain_stream (by rw [exhausted_after, fresh]), stream_after, TokenStream.results_drop]

end Scanner

/-! ## Main statement -/

/-- What a scanner can hand out for a source: tokens in their order, and what it stops with. -/
structure IsScanOf (source : String) (tokens : List Token) (last : TokenResult) : Prop where
  length_le : tokens.length ≤ source.length
  inner : ∀ token ∈ tokens, token.kind ≠ .endOfInput
  ordered : tokens.Pairwise fun first second => first.position < second.position
  closed : last = .ok (.endOfInput source.length) ∨
    ∃ error, last = .error error ∧ error.position ≤ source.length

theorem isScanOf_sourceStream (source : String) :
    IsScanOf source (sourceStream source).tokens (sourceStream source).close.result := by
  refine ⟨?_, fun token htoken => ?_, TokenStream.pairwise_position _ _, ?_⟩
  · rw [← String.length_toList]
    exact TokenStream.tokens_length_le _ _
  · have more := isEnd_of_mem_sourceStream source token htoken
    rw [ne_eq, ← Token.isEnd_iff, more]
    exact nofun
  · cases hclose : (sourceStream source).close with
    | endOfInput position =>
      rw [endOfInput_sourceStream hclose]
      exact .inl rfl
    | failure error =>
      have bound := TokenStream.error_position_le _ _ hclose
      rw [Nat.zero_add, String.length_toList] at bound
      exact .inr ⟨error, rfl, bound⟩

/--
**What a scanner answers.** A source has finitely many tokens, no more than characters, each further
on than the one before, and behind them the end token or a lexical error. Requests get these results
one after the other, and the last one for ever. Iteration that starts behind some requests gets the
results that are left, the last one at least, and nothing after them. The tokens of the source are
all of the results, unless the last one is an error.
-/
theorem scanner_repeats_last (source : String) :
    ∃ (tokens : List Token) (last : TokenResult), IsScanOf source tokens last ∧
      let results := tokens.map .ok ++ [last]
      (∀ request, results[min request tokens.length]?
        = some ((Scanner.ofSource source).answer request)) ∧
      (∀ count,
        ((Scanner.ofSource source).after count).drain.1
          = results.drop (min count tokens.length) ∧
        ∀ step, ((Scanner.ofSource source).after count).drain.2.iteration step = none) ∧
      tokenize source = last.map (tokens ++ [·]) := by
  refine ⟨_, _, isScanOf_sourceStream source, fun request => ?_, fun count => ⟨?_, ?_⟩,
    tokenize_eq source⟩
  · rw [answer_stream]
    exact (sourceStream source).getElem?_results request
  · exact Scanner.drain_after rfl count
  · exact Scanner.iteration_of_exhausted (Scanner.exhausted_drain _)

end Rulebook.Lexis
