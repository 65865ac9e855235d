import Rulebook.Proofs.Lexis.Spelling

/-!
# Reading one lexeme, forwards and backwards

`readToken` gives a lexeme's token exactly when a lexeme stands there and may end there.

* Forwards (`readToken_gap`, `readToken_nil`, `readToken_lexeme`): white space is skipped, and a
  lexeme is read whole when the automaton may stop behind it (`Lexeme.EndsBefore`).
* Backwards (`readToken_ok_cases`): every token that is read comes from white space up to the end of
  the text, or from a lexeme behind white space.
* `Lexeme.endsBefore_spelling`: a lexeme may end directly before another one if and only if exactly
  one of the two is a symbolic operator.
* `readFrom_induction`: what a run does with its next character, for facts about every run.
-/

namespace Rulebook.Lexis

/-! ## Single steps of the automaton -/

/-- The states in which a lexeme has been opened and is not finished. -/
def State.isInside : State → Bool
  | .word | .number | .operator | .quoted | .closed => true
  | .start | .failed | .finished => false

/-- What is read, with the text behind it: one white space character is taken along. -/
def ReadToken.before (token : Token) (position : Nat) : List Char → ReadToken
  | [] => ⟨token, [], position⟩
  | c :: rest =>
    if Text.isBlank c then ⟨token, rest, position + 1⟩ else ⟨token, c :: rest, position⟩

/-- Why a lexeme does not end before the given character, or the end of the text. -/
def stopCause (state : State) (text : String) : Option Char → LexicalCause
  | some c => refusal c text
  | none => refusalAtEnd state text

variable {state : State} {read : List Char} {start position : Nat}

/-- A state that a character opens or keeps goes on with the rest of the text. -/
theorem readFrom_next {c : Char} {rest : List Char} {next : State}
    (h : state.next (CharClass.of (some c)) = next) (inside : next.isInside = true) :
    readFrom state read start position (c :: rest)
      = readFrom next (if CharClass.of (some c) = .quote then read else c :: read) start
          (position + 1) rest := by
  subst h
  rw [readFrom]
  split
  · next heq => simp [heq, State.isInside] at inside
  · next heq => simp [heq, State.isInside] at inside
  · next heq => simp [heq, State.isInside] at inside
  · rfl

/-- White space before a lexeme moves its start. -/
theorem readFrom_skip {c : Char} {rest : List Char}
    (h : state.next (CharClass.of (some c)) = .start) :
    readFrom state read start position (c :: rest)
      = readFrom .start read (position + 1) (position + 1) rest := by
  rw [readFrom]
  split
  · next heq => simp [h] at heq
  · next heq => simp [h] at heq
  · rfl
  · next heq => exact absurd h heq

/-- In an open lexeme a quote never keeps the state. -/
theorem not_quote_of_stays {c : Char} (inside : state.isInside = true)
    (h : state.next (CharClass.of (some c)) = state) : CharClass.of (some c) ≠ .quote := by
  intro quote
  rw [quote] at h
  cases state <;> simp [State.next, State.isInside] at h inside

/-- Characters that keep the state are collected. -/
theorem readFrom_run (inside : state.isInside = true) {run : List Char} (rest : List Char)
    (h : ∀ c ∈ run, state.next (CharClass.of (some c)) = state) :
    readFrom state read start position (run ++ rest)
      = readFrom state (run.reverse ++ read) start (position + run.length) rest := by
  induction run generalizing read position with
  | nil => rfl
  | cons c run ih =>
    have stays := h c List.mem_cons_self
    rw [List.cons_append, readFrom_next stays inside,
      if_neg (not_quote_of_stays inside stays), ih fun d hd => h d (List.mem_cons_of_mem _ hd)]
    simp only [List.reverse_cons, List.append_assoc, List.cons_append, List.nil_append,
      List.length_cons, Nat.add_assoc, Nat.add_comm 1]

theorem readFrom_finish {text : List Char}
    (h : state.next (CharClass.of text.head?) = .finished) :
    readFrom state read start position text
      = (conclude state (String.ofList read.reverse) start).map
          fun token => ReadToken.before token position text := by
  cases text with
  | nil =>
    rw [readFrom]
    exact if_pos h
  | cons c rest =>
    rw [List.head?_cons] at h
    rw [readFrom]
    split
    · next heq => simp [h] at heq
    · simp only [ReadToken.before, of_eq_blank_iff]
    · next heq => simp [h] at heq
    · next _ heq _ => exact absurd h heq

/-- Where a lexeme may end, an error is one of the lexeme itself. -/
theorem readFrom_eq_error_iff {text : List Char} {error : LexicalError}
    (h : state.next (CharClass.of text.head?) = .finished) :
    readFrom state read start position text = .error error ↔
      conclude state (String.ofList read.reverse) start = .error error := by
  rw [readFrom_finish h]
  cases conclude state (String.ofList read.reverse) start with
  | error error' => simp [Except.map]
  | ok token => exact ⟨nofun, nofun⟩

theorem readFrom_fail {text : List Char}
    (h : state.next (CharClass.of text.head?) = .failed) :
    readFrom state read start position text
      = .error ⟨stopCause state (String.ofList read.reverse) text.head?, position⟩ := by
  cases text with
  | nil =>
    rw [readFrom]
    refine if_neg fun finished => ?_
    rw [List.head?_nil] at h
    exact absurd (h.symm.trans finished) (by decide)
  | cons c rest =>
    rw [List.head?_cons] at h
    rw [readFrom]
    split
    · rfl
    · next heq => simp [h] at heq
    · next heq => simp [h] at heq
    · next heq _ _ => exact absurd h heq

/--
What holds of a reader that stops at once, and is kept by one more character in front, holds of
every reader. A character in front is skipped, or opens a lexeme or goes on with it.
-/
theorem readFrom_induction {motive : State → List Char → Nat → Nat → List Char → Prop}
    (finish : ∀ {state read start position} {text : List Char},
      state.next (CharClass.of text.head?) = .finished → motive state read start position text)
    (fail : ∀ {state read start position} {text : List Char},
      state.next (CharClass.of text.head?) = .failed → motive state read start position text)
    (skip : ∀ {state read start position c rest}, state.next (CharClass.of (some c)) = .start →
      motive .start read (position + 1) (position + 1) rest →
      motive state read start position (c :: rest))
    (next : ∀ {state read start position c rest} {next : State},
      state.next (CharClass.of (some c)) = next → next.isInside = true →
      motive next (if CharClass.of (some c) = .quote then read else c :: read) start (position + 1)
        rest →
      motive state read start position (c :: rest))
    (state : State) (read : List Char) (start position : Nat) (text : List Char) :
    motive state read start position text := by
  induction text generalizing state read start position with
  | nil =>
    rcases State.next_finish state with h | h
    · exact finish h
    · exact fail h
  | cons c rest ih =>
    cases h : state.next (CharClass.of (some c)) with
    | finished => exact finish h
    | failed => exact fail h
    | start => exact skip h (ih _ _ _ _)
    | word | number | operator | quoted | closed => exact next h rfl (ih _ _ _ _)

/-! ## Runs of characters -/

/-- The longest opening run of characters with a property. -/
theorem exists_run (p : Char → Prop) [DecidablePred p] (text : List Char) :
    ∃ run after, text = run ++ after ∧ (∀ c ∈ run, p c) ∧
      ∀ c, after.head? = some c → ¬ p c := by
  refine ⟨text.takeWhile (p ·), text.dropWhile (p ·), by simp, fun c hc => ?_, fun c hc => ?_⟩
  · simpa using List.all_eq_true.1 List.all_takeWhile c hc
  · simpa [hc] using List.head?_dropWhile_not (decide <| p ·) text

/-! ## Reading forwards -/

/-- The automaton may stop behind the lexeme, given the text that follows it. -/
def Lexeme.EndsBefore (lexeme : Lexeme) (after : List Char) : Prop :=
  lexeme.endState.next (CharClass.of after.head?) = .finished

theorem readToken_nil (position : Nat) :
    readToken [] position = .ok ⟨.endOfInput position, [], position⟩ := by
  rfl

theorem readToken_blank {c : Char} (h : Text.isBlank c = true) (rest : List Char)
    (position : Nat) : readToken (c :: rest) position = readToken rest (position + 1) := by
  unfold readToken
  rw [readFrom, of_eq_blank_iff.2 h]
  rfl

theorem readToken_gap {gap : List Char} (h : IsGap gap) (text : List Char) (position : Nat) :
    readToken (gap ++ text) position = readToken text (position + gap.length) := by
  induction gap generalizing position with
  | nil => rfl
  | cons c gap ih =>
    rw [List.cons_append, readToken_blank (h c List.mem_cons_self),
      ih fun d hd => h d (List.mem_cons_of_mem _ hd), List.length_cons, Nat.add_assoc,
      Nat.add_comm 1]

/-- The first character of a lexeme opens it. -/
theorem readToken_open {c : Char} {rest : List Char} (next : State)
    (h : State.start.next (CharClass.of (some c)) = next) (inside : next.isInside = true) :
    readToken (c :: rest) position
      = readFrom next (if CharClass.of (some c) = .quote then [] else [c]) position
          (position + 1) rest :=
  readFrom_next h inside

theorem stays_word {c : Char} (h : isLetter c = true ∨ isDigitOrPoint c = true) :
    State.word.next (CharClass.of (some c)) = .word := by
  rcases h with h | h
  · rw [of_eq_letter_iff.2 h]; rfl
  · rw [of_eq_digit_iff.2 h]; rfl

theorem stays_quoted {c : Char} (h : c ≠ '"') :
    State.quoted.next (CharClass.of (some c)) = .quoted := by
  have finish := CharClass.of_some_ne_finish c
  have quote := mt of_eq_quote_iff.1 h
  cases hc : CharClass.of (some c) <;> simp_all [State.next]

theorem of_quote : CharClass.of (some '"') = .quote :=
  of_eq_quote_iff.2 rfl

theorem closes_quoted : State.quoted.next (CharClass.of (some '"')) = .closed := by
  rw [of_quote]
  rfl

theorem length_quoted (position : Nat) (content : List Char) :
    position + ('"' :: content ++ ['"']).length = position + 1 + content.length + 1 := by
  simp only [List.cons_append, List.length_cons, List.length_append, List.length_nil]
  omega

/--
A lexeme that is read from its second character on: the first one opened it, and the others keep
the state in which it ends.
-/
theorem readToken_body {lexeme : Lexeme} {c : Char} {body after : List Char}
    (hopen : State.start.next (CharClass.of (some c)) = lexeme.endState)
    (hc : CharClass.of (some c) ≠ .quote) (spelled : lexeme.spelling = c :: body)
    (shown : lexeme.content = c :: body) (inside : lexeme.endState.isInside = true)
    (stays : ∀ d ∈ body, lexeme.endState.next (CharClass.of (some d)) = lexeme.endState)
    (ends : lexeme.EndsBefore after) :
    readToken (lexeme.spelling ++ after) position
      = .ok (.before (lexeme.token position) (position + lexeme.spelling.length) after) := by
  rw [spelled, List.cons_append, readToken_open _ hopen inside, if_neg hc,
    readFrom_run inside after stays, readFrom_finish ends]
  have text : (body.reverse ++ [c]).reverse = lexeme.content := by simp [shown]
  rw [text, conclude_lexeme, Nat.add_assoc, Nat.add_comm 1, List.length_cons]
  rfl

theorem readToken_lexeme {lexeme : Lexeme} {after : List Char} (ends : lexeme.EndsBefore after) :
    readToken (lexeme.spelling ++ after) position
      = .ok (.before (lexeme.token position) (position + lexeme.spelling.length) after) := by
  cases lexeme with
  | word text h =>
    obtain ⟨first, rest, rfl, hfirst, hrest⟩ := h
    have letter := of_eq_letter_iff.2 hfirst
    exact readToken_body (by rw [letter]; rfl) (by rw [letter]; decide) rfl rfl rfl
      (fun d hd => stays_word (hrest d hd)) ends
  | number text h =>
    obtain ⟨first, rest, rfl, hfirst, hrest⟩ := h.chars
    have cls : CharClass.of (some first) = .sign ∨ CharClass.of (some first) = .digit :=
      hfirst.imp of_eq_sign_iff.2 of_eq_digit_iff.2
    refine readToken_body ?_ ?_ rfl rfl rfl (fun d hd => ?_) ends
    · rcases cls with cls | cls <;> rw [cls] <;> rfl
    · rcases cls with cls | cls <;> rw [cls] <;> decide
    · rw [of_eq_digit_iff.2 (hrest d hd)]; rfl
  | symbol text kind h =>
    obtain ⟨nonempty, chars⟩ := operatorChars_of_symbols (text, kind) h
    obtain ⟨first, rest, spelled⟩ := List.exists_cons_of_ne_nil nonempty
    have cls : ∀ d ∈ first :: rest, CharClass.of (some d) = .operator :=
      fun d hd => of_eq_operator_iff.2 (chars d (spelled ▸ hd))
    refine readToken_body ?_ ?_ spelled spelled rfl (fun d hd => ?_) ends
    · rw [cls first List.mem_cons_self]; rfl
    · rw [cls first List.mem_cons_self]; decide
    · rw [cls d (List.mem_cons_of_mem _ hd)]; rfl
  | quoted content h =>
    have stays : ∀ d ∈ content, State.quoted.next (CharClass.of (some d)) = .quoted :=
      fun d hd => stays_quoted fun eq => h (eq ▸ hd)
    have opens : State.start.next (CharClass.of (some '"')) = .quoted := by rw [of_quote]; rfl
    have stops : State.closed.next (CharClass.of after.head?) = .finished := ends
    have length : position + ('"' :: (content ++ ['"'])).length
        = position + 1 + content.length + 1 := length_quoted position content
    simp only [Lexeme.spelling, List.cons_append, List.append_assoc, List.nil_append]
    rw [readToken_open _ opens rfl, if_pos of_quote, readFrom_run rfl _ stays,
      readFrom_next closes_quoted rfl, if_pos of_quote, readFrom_finish stops, List.append_nil,
      List.reverse_reverse, length]
    rfl

/-! ## Reading backwards -/

/-- A state that goes on with itself or stops: all open states but the one between quotes. -/
def State.IsSettled (state : State) : Prop :=
  ∀ cls, state.next cls = state ∨ state.next cls = .finished ∨ state.next cls = .failed

/-- What was read in a settled state: the characters that kept it, up to where it may stop. -/
theorem readFrom_ok {text : List Char} {result : ReadToken} (settled : state.IsSettled)
    (inside : state.isInside = true)
    (h : readFrom state read start position text = .ok result) :
    ∃ run after token, text = run ++ after ∧
      (∀ c ∈ run, state.next (CharClass.of (some c)) = state) ∧
      state.next (CharClass.of after.head?) = .finished ∧
      conclude state (String.ofList (read.reverse ++ run)) start = .ok token ∧
      result = .before token (position + run.length) after := by
  obtain ⟨run, after, rfl, stays, stop⟩ :=
    exists_run (fun c => state.next (CharClass.of (some c)) = state) text
  rw [readFrom_run inside after stays] at h
  have leaves : state.next (CharClass.of after.head?) ≠ state := by
    cases after with
    | nil =>
      intro same
      rcases State.next_finish state with hfinish | hfinish <;>
        rw [List.head?_nil, CharClass.of, hfinish] at same <;> subst same <;>
        simp [State.isInside] at inside
    | cons c rest => exact stop c rfl
  rcases settled (CharClass.of after.head?) with hnext | hnext | hnext
  · exact absurd hnext leaves
  · rw [readFrom_finish hnext] at h
    cases hc : conclude state (String.ofList (run.reverse ++ read).reverse) start with
    | error error => rw [hc] at h; cases h
    | ok token =>
      rw [hc] at h
      refine ⟨run, after, token, rfl, stays, hnext, ?_, (Except.ok.inj h).symm⟩
      rw [← hc, List.reverse_append, List.reverse_reverse]
  · rw [readFrom_fail hnext] at h
    cases h

theorem keeps_word_iff {cls : CharClass} :
    State.word.next cls = .word ↔ cls = .letter ∨ cls = .digit := by
  cases cls <;> decide

theorem keeps_number_iff {cls : CharClass} : State.number.next cls = .number ↔ cls = .digit := by
  cases cls <;> decide

theorem keeps_operator_iff {cls : CharClass} :
    State.operator.next cls = .operator ↔ cls = .operator := by
  cases cls <;> decide

/-- What stands at the front of a text from which a token was read. -/
def ReadsLexeme (text : List Char) (position : Nat) (result : ReadToken) : Prop :=
  ∃ (lexeme : Lexeme) (after : List Char), text = lexeme.spelling ++ after ∧
    lexeme.EndsBefore after ∧
    result = .before (lexeme.token position) (position + lexeme.spelling.length) after

/-- A lexeme of which the reader collected every character after the first. -/
theorem readsLexeme_body (lexeme : Lexeme) {c : Char} {body after : List Char} {token : Token}
    {result : ReadToken} (spelled : lexeme.spelling = c :: body)
    (shown : lexeme.content = c :: body)
    (ends : lexeme.endState.next (CharClass.of after.head?) = .finished)
    (concluded :
      conclude lexeme.endState (String.ofList ([c].reverse ++ body)) position = .ok token)
    (h : result = .before token (position + 1 + body.length) after) :
    ReadsLexeme (c :: (body ++ after)) position result := by
  have text : [c].reverse ++ body = lexeme.content := by simp [shown]
  rw [text, conclude_lexeme, Except.ok.injEq] at concluded
  refine ⟨lexeme, after, by rw [spelled]; rfl, ends, ?_⟩
  rw [h, ← concluded, spelled, List.length_cons, Nat.add_assoc, Nat.add_comm 1]

theorem readsLexeme_word {c : Char} {rest : List Char} {result : ReadToken}
    (hc : isLetter c = true) (h : readFrom .word [c] position (position + 1) rest = .ok result) :
    ReadsLexeme (c :: rest) position result := by
  have settled : State.word.IsSettled := by intro cls; cases cls <;> decide
  obtain ⟨run, after, token, rfl, stays, ends, concluded, hresult⟩ := readFrom_ok settled rfl h
  have word : IsWord (c :: run) := by
    refine ⟨c, run, rfl, hc, fun d hd => ?_⟩
    exact (keeps_word_iff.1 (stays d hd)).imp of_eq_letter_iff.1 of_eq_digit_iff.1
  exact readsLexeme_body (.word _ word) rfl rfl ends concluded hresult

theorem readsLexeme_number {c : Char} {rest : List Char} {result : ReadToken}
    (hc : c = '-' ∨ isDigitOrPoint c = true)
    (h : readFrom .number [c] position (position + 1) rest = .ok result) :
    ReadsLexeme (c :: rest) position result := by
  have settled : State.number.IsSettled := by intro cls; cases cls <;> decide
  obtain ⟨run, after, token, rfl, stays, ends, concluded, hresult⟩ := readFrom_ok settled rfl h
  have digits : ∀ d ∈ run, isDigitOrPoint d = true :=
    fun d hd => of_eq_digit_iff.1 (keeps_number_iff.1 (stays d hd))
  by_cases numeral : isNumeral (String.ofList (c :: run)) = true
  · have number : IsNumber (c :: run) := (isNumeral_iff hc digits).1 numeral
    exact readsLexeme_body (.number _ number) rfl rfl ends concluded hresult
  · simp only [conclude, List.reverse_singleton, List.singleton_append] at concluded
    rw [if_neg numeral] at concluded
    cases concluded

theorem readsLexeme_symbol {c : Char} {rest : List Char} {result : ReadToken}
    (hc : isOperatorChar c = true)
    (h : readFrom .operator [c] position (position + 1) rest = .ok result) :
    ReadsLexeme (c :: rest) position result := by
  have settled : State.operator.IsSettled := by intro cls; cases cls <;> decide
  obtain ⟨run, after, token, rfl, stays, ends, concluded, hresult⟩ := readFrom_ok settled rfl h
  have chars : ∀ d ∈ (String.ofList (c :: run)).toList, isOperatorChar d = true := by
    rw [String.toList_ofList]
    refine List.forall_mem_cons.2 ⟨hc, fun d hd => ?_⟩
    exact of_eq_operator_iff.1 (keeps_operator_iff.1 (stays d hd))
  cases lookup : operatorKind? (String.ofList (c :: run)) with
  | none =>
    simp only [conclude, List.reverse_singleton, List.singleton_append] at concluded
    rw [lookup] at concluded
    cases concluded
  | some kind =>
    have symbol := (operatorKind?_eq_some_iff chars).1 lookup
    exact readsLexeme_body (.symbol _ kind symbol) String.toList_ofList
      String.toList_ofList ends concluded hresult

theorem readsLexeme_quoted {rest : List Char} {result : ReadToken}
    (h : readFrom .quoted [] position (position + 1) rest = .ok result) :
    ReadsLexeme ('"' :: rest) position result := by
  obtain ⟨content, tail, rfl, inner, stop⟩ := exists_run (fun c => c ≠ '"') rest
  rw [readFrom_run rfl tail fun c hc => stays_quoted (inner c hc)] at h
  cases tail with
  | nil =>
    rw [readFrom_fail rfl] at h
    cases h
  | cons c after =>
    have closing : c = '"' := Decidable.of_not_not (stop c rfl)
    subst closing
    have settled : State.closed.IsSettled := by intro cls; cases cls <;> decide
    rw [readFrom_next closes_quoted rfl, if_pos of_quote] at h
    obtain ⟨run, after, token, rfl, stays, ends, concluded, hresult⟩ := readFrom_ok settled rfl h
    have none_stays : ∀ cls, State.closed.next cls ≠ .closed := by intro cls; cases cls <;> decide
    have empty : run = [] := List.eq_nil_iff_forall_not_mem.2 fun d hd => none_stays _ (stays d hd)
    subst empty
    simp only [conclude, List.append_nil, List.reverse_reverse, Except.ok.injEq] at concluded
    refine ⟨.quoted content fun hmem => inner _ hmem rfl, after, by simp [Lexeme.spelling], ends,
      ?_⟩
    rw [hresult, ← concluded]
    simp only [Lexeme.spelling, length_quoted]
    rfl

/--
Every token that is read is the end of the text behind white space, or the token of a lexeme behind
white space.
-/
theorem readToken_ok_cases {text : List Char} {result : ReadToken}
    (h : readToken text position = .ok result) :
    (IsGap text ∧ result = ⟨.endOfInput (position + text.length), [], position + text.length⟩) ∨
    ∃ gap tail, text = gap ++ tail ∧ IsGap gap ∧
      ReadsLexeme tail (position + gap.length) result := by
  obtain ⟨gap, tail, rfl, hgap, stop⟩ := exists_run (fun c => Text.isBlank c = true) text
  rw [readToken_gap hgap] at h
  cases tail with
  | nil =>
    rw [readToken_nil, Except.ok.injEq] at h
    exact Or.inl ⟨by rwa [List.append_nil], by simp [← h]⟩
  | cons c rest =>
    refine Or.inr ⟨gap, c :: rest, rfl, hgap, ?_⟩
    rcases of_some_cases c with ⟨hcls, hc⟩ | ⟨hcls, hc⟩ | ⟨hcls, hc⟩ | ⟨hcls, hc⟩ | ⟨hcls, hc⟩ |
      ⟨hcls, hc⟩ | hcls
    · rw [readToken_open .word (by rw [hcls]; rfl) rfl, if_neg (by simp [hcls])] at h
      exact readsLexeme_word hc h
    · rw [readToken_open .number (by rw [hcls]; rfl) rfl, if_neg (by simp [hcls])] at h
      exact readsLexeme_number (Or.inr hc) h
    · rw [readToken_open .operator (by rw [hcls]; rfl) rfl, if_neg (by simp [hcls])] at h
      exact readsLexeme_symbol hc h
    · rw [readToken_open .number (by rw [hcls]; rfl) rfl, if_neg (by simp [hcls])] at h
      exact readsLexeme_number (Or.inl hc) h
    · rw [readToken_open .quoted (by rw [hcls]; rfl) rfl, if_pos hcls] at h
      rw [hc]
      exact readsLexeme_quoted h
    · exact absurd hc (stop c rfl)
    · rw [readToken, readFrom_fail (by rw [List.head?_cons, hcls]; rfl)] at h
      cases h

/-! ## Where a lexeme may end -/

theorem Lexeme.endsBefore_nil (lexeme : Lexeme) : lexeme.EndsBefore [] := by
  cases lexeme <;> rfl

theorem Lexeme.endsBefore_blank (lexeme : Lexeme) {c : Char} (h : Text.isBlank c = true)
    (rest : List Char) : lexeme.EndsBefore (c :: rest) := by
  unfold EndsBefore
  rw [List.head?_cons, of_eq_blank_iff.2 h]
  cases lexeme <;> rfl

/-- A character that opens a lexeme ends another one when one of the two is an operator. -/
theorem Lexeme.endState_next_iff (lexeme next : Lexeme) {cls : CharClass}
    (h : State.start.next cls = next.openState) :
    lexeme.endState.next cls = .finished ↔ lexeme.isSymbol ≠ next.isSymbol := by
  cases cls <;> cases next <;> cases h <;> cases lexeme <;>
    simp [endState, isSymbol, State.next]

/-- Next to each other, without white space, stand an operator and something else. -/
theorem Lexeme.endsBefore_spelling (lexeme next : Lexeme) (after : List Char) :
    lexeme.EndsBefore (next.spelling ++ after) ↔ lexeme.isSymbol ≠ next.isSymbol := by
  obtain ⟨c, rest, spelled, hopen⟩ := next.opens
  unfold EndsBefore
  rw [spelled, List.cons_append, List.head?_cons]
  exact endState_next_iff lexeme next hopen

end Rulebook.Lexis
