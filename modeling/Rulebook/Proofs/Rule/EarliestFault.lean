import Rulebook.Proofs.Rule.Acceptance
import Rulebook.Proofs.Rule.Place

/-!
# The earliest fault

The automaton of places reads the answers of a scanner one by one, and stops at the first one it
cannot use (`Place.read`, `reach`). The parser reports what stops the automaton.

* `tracks_rule`: every step of the parser moves as the automaton does, and fails where it fails.
* `Stops`: what can be wrong with an answer, said of beginnings of sentences and not of places.
* `parse_reports_earliest`: a source is refused for the first answer that anything is wrong with.
-/

namespace Rulebook

open Lexis (Token TokenKind TokenResult TokenStream Scanner)

/-! ## Places read answers -/

/-- The kinds that the grammar has in mind where it asks for something. -/
def Expected.admits : Expected → TokenKind → Bool
  | .ifWord, kind => kind == .ifWord
  | .identifier, kind => kind == .identifier
  | .comparison, kind => kind.isComparison
  | .literal, kind => isLiteralKind kind
  | .thenOrAnd, kind => kind == .thenWord || kind == .andWord
  | .assignment, kind => kind == .assign
  | .endOfRule, kind => kind == .endOfInput

namespace Place

/-- What the grammar asks for at a place; nothing behind a complete rule. -/
def expected? : Place → Option Expected
  | .opening => some .ifWord
  | .left | .target => some .identifier
  | .relation => some .comparison
  | .right | .value => some .literal
  | .joint => some .thenOrAnd
  | .assign => some .assignment
  | .close => some .endOfRule
  | .finished => none

theorem isSome_next?_eq_admits {place : Place} {expected : Expected}
    (h : place.expected? = some expected) (kind : TokenKind) :
    (place.next? kind).isSome = expected.admits kind := by
  cases place <;> cases h <;> cases kind <;> rfl

theorem exists_expected? {place : Place} (unfinished : place ≠ .finished) :
    ∃ expected, place.expected? = some expected := by
  cases place <;> first | exact ⟨_, rfl⟩ | exact absurd rfl unfinished

theorem ne_finished_of_next? {place next : Place} {kind : TokenKind}
    (h : place.next? kind = some next) : place ≠ .finished := by
  rintro rfl
  cases h

/-- Only the end token completes a rule. -/
theorem kind_of_next?_finished {place : Place} {kind : TokenKind}
    (h : place.next? kind = some .finished) : kind = .endOfInput := by
  cases place <;> cases kind <;> first | rfl | cases h

/-- A number stands where the grammar asks for a literal. -/
theorem expected?_of_next?_number {place next : Place} (h : place.next? .number = some next) :
    place.expected? = some .literal := by
  cases place <;> first | rfl | cases h

/-- The place behind an answer, or what is wrong with the answer at this place. -/
def read (place : Place) : TokenResult → Except Fault Place
  | .error error => .error (.lexical error)
  | .ok token =>
    match place.expected?, place.next? token.kind with
    | none, _ => .ok place
    | some expected, none => .error (.grammar expected token)
    | some _, some next =>
      if token.kind = .number ∧ (numberOf token).isFinite = false then
        .error (.lexical ⟨.numberOutOfRange token.text, token.position⟩)
      else .ok next

section Read

variable {place next : Place} {token : Token} {expected : Expected}

theorem read_refused (h : place.expected? = some expected) (hnext : place.next? token.kind = none) :
    place.read (.ok token) = .error (.grammar expected token) := by
  rw [read, h, hnext]

theorem read_overflow (h : token.kind = .number) (hnext : place.next? token.kind = some next)
    (hfinite : (numberOf token).isFinite = false) :
    place.read (.ok token) = .error (.lexical ⟨.numberOutOfRange token.text, token.position⟩) := by
  rw [read, expected?_of_next?_number (by rw [← h, hnext]), hnext]
  exact if_pos ⟨h, hfinite⟩

theorem read_accepted (hnext : place.next? token.kind = some next)
    (hfinite : token.kind = .number → (numberOf token).isFinite = true) :
    place.read (.ok token) = .ok next := by
  obtain ⟨expected, hexpected⟩ := exists_expected? (ne_finished_of_next? hnext)
  rw [read, hexpected, hnext]
  refine if_neg fun h => ?_
  rw [hfinite h.1] at h
  cases h.2

/-- The end of a rule is never left. -/
theorem ne_finished_of_read {answer : TokenResult} (h : place.read answer = .ok next)
    (unfinished : next ≠ .finished) : place ≠ .finished := by
  intro ended
  subst ended
  cases answer with
  | error error => cases h
  | ok token =>
    cases h
    exact unfinished rfl

/-- What can become of a token, short of the end of a rule. -/
theorem read_token_cases (token : Token) (unfinished : place ≠ .finished) :
    (∃ expected, place.expected? = some expected ∧ place.next? token.kind = none ∧
      place.read (.ok token) = .error (.grammar expected token)) ∨
    (token.kind = .number ∧ (numberOf token).isFinite = false ∧
      place.expected? = some .literal ∧
      place.read (.ok token) = .error (.lexical ⟨.numberOutOfRange token.text, token.position⟩)) ∨
    ∃ next, place.next? token.kind = some next ∧
      (token.kind = .number → (numberOf token).isFinite = true) ∧
      place.read (.ok token) = .ok next := by
  cases hnext : place.next? token.kind with
  | none =>
    obtain ⟨expected, hexpected⟩ := exists_expected? unfinished
    exact .inl ⟨expected, hexpected, rfl, read_refused hexpected hnext⟩
  | some next =>
    by_cases overflow : token.kind = .number ∧ (numberOf token).isFinite = false
    · obtain ⟨number, infinite⟩ := overflow
      have literal := expected?_of_next?_number (by rw [← number, hnext])
      exact .inr (.inl ⟨number, infinite, literal, read_overflow number hnext infinite⟩)
    · have hfinite : token.kind = .number → (numberOf token).isFinite = true :=
        fun number => Bool.of_not_eq_false fun infinite => overflow ⟨number, infinite⟩
      exact .inr (.inr ⟨next, rfl, hfinite, read_accepted hnext hfinite⟩)

/-- A rule goes on with a token that has its place there, and with a number when it is finite. -/
theorem token_of_read {answer : TokenResult} (unfinished : place ≠ .finished)
    (h : place.read answer = .ok next) :
    ∃ token, answer = .ok token ∧ place.next? token.kind = some next ∧
      (token.kind = .number → (numberOf token).isFinite = true) := by
  cases answer with
  | error error => cases h
  | ok token =>
    rcases read_token_cases token unfinished with
      ⟨_, -, -, refused⟩ | ⟨-, -, -, overflow⟩ | ⟨after, hnext, hfinite, accepted⟩
    · rw [refused] at h
      cases h
    · rw [overflow] at h
      cases h
    · rw [accepted] at h
      cases h
      exact ⟨token, rfl, hnext, hfinite⟩

end Read

/-! ## Runs of the automaton -/

/-- The place behind the given number of answers, or what was wrong with one of them. -/
def reach (place : Place) (answers : Nat → TokenResult) : Nat → Except Fault Place
  | 0 => .ok place
  | count + 1 => reach place answers count >>= (·.read (answers count))

theorem reach_succ (place : Place) (answers : Nat → TokenResult) (count : Nat) :
    place.reach answers (count + 1)
      = place.read (answers 0) >>= (·.reach (fun i => answers (i + 1)) count) := by
  induction count with
  | zero =>
    rw [reach]
    change place.read (answers 0) = _
    cases place.read (answers 0) <;> rfl
  | succ count ih =>
    rw [reach, ih]
    cases place.read (answers 0) <;> rfl

theorem reach_eq_ok_iff {place next : Place} {answers : Nat → TokenResult} {count : Nat} :
    place.reach answers (count + 1) = .ok next ↔
      ∃ before, place.reach answers count = .ok before ∧
        before.read (answers count) = .ok next := by
  rw [reach]
  cases place.reach answers count with
  | error fault => exact ⟨nofun, nofun⟩
  | ok before =>
    constructor
    · intro h
      exact ⟨before, rfl, h⟩
    · intro h
      obtain ⟨_, ⟨⟩, h⟩ := h
      exact h

theorem reach_congr {answers answers' : Nat → TokenResult} {count : Nat}
    (h : ∀ i < count, answers i = answers' i) (place : Place) :
    place.reach answers count = place.reach answers' count := by
  induction count with
  | zero => rfl
  | succ count ih =>
    rw [reach, reach, ih fun i hi => h i (Nat.lt_succ_of_lt hi), h count (Nat.lt_succ_self count)]

/-- The automaton stops, with this fault. -/
def Fails (place : Place) (answers : Nat → TokenResult) (fault : Fault) : Prop :=
  ∃ count, place.reach answers count = .error fault

/-- The automaton stops at the first answer that it cannot use. -/
theorem exists_read_error {place : Place} {answers : Nat → TokenResult} {fault : Fault}
    (h : place.Fails answers fault) :
    ∃ i before, place.reach answers i = .ok before ∧ before.read (answers i) = .error fault := by
  obtain ⟨count, hcount⟩ := h
  induction count with
  | zero => cases hcount
  | succ count ih =>
    rw [reach] at hcount
    cases hbefore : place.reach answers count with
    | error stop =>
      rw [hbefore] at hcount
      cases hcount
      exact ih hbefore
    | ok before =>
      rw [hbefore] at hcount
      exact ⟨count, before, hbefore, hcount⟩

section Fails

variable {place next : Place} {answers : Nat → TokenResult} {fault stop : Fault}

theorem fails_of_read_error (h : place.read (answers 0) = .error stop) :
    place.Fails answers fault ↔ fault = stop := by
  constructor
  · intro hfails
    obtain ⟨_ | count, hcount⟩ := hfails
    · cases hcount
    · rw [reach_succ, h] at hcount
      cases hcount
      rfl
  · intro hfault
    refine ⟨1, ?_⟩
    rw [reach_succ, h, hfault]
    rfl

theorem fails_of_read_ok (h : place.read (answers 0) = .ok next) :
    place.Fails answers fault ↔ next.Fails (fun i => answers (i + 1)) fault := by
  constructor
  · intro hfails
    obtain ⟨_ | count, hcount⟩ := hfails
    · cases hcount
    · rw [reach_succ, h] at hcount
      exact ⟨count, hcount⟩
  · intro hfails
    obtain ⟨count, hcount⟩ := hfails
    refine ⟨count + 1, ?_⟩
    rw [reach_succ, h]
    exact hcount

end Fails

end Place

/-! ## The parser follows the automaton -/

namespace Parser

/-- What a parser has before it: the current token, and the answers to its requests. -/
def answers (parser : Parser) : Nat → TokenResult
  | 0 => .ok parser.current
  | i + 1 => parser.upcoming.answer i

/--
A step that leads from one place of the grammar to another: it gets there with what the automaton
has left to read, or reports the fault that stops the automaton.
-/
def Tracks {α : Type} (here there : Place) (parser : Parser) :
    EStateM.Result Fault Parser α → Prop
  | .ok _ after => ∀ fault, here.Fails parser.answers fault ↔ there.Fails after.answers fault
  | .error stop _ => ∀ fault, here.Fails parser.answers fault ↔ fault = stop

section Tracks

variable {α β : Type} {here middle there : Place} {parser : Parser}

theorem Tracks.trans {value : α} {after : Parser} {result : EStateM.Result Fault Parser β}
    (h₁ : Tracks here middle parser (.ok value after)) (h₂ : Tracks middle there after result) :
    Tracks here there parser result := by
  cases result <;> exact fun fault => (h₁ fault).trans (h₂ fault)

theorem tracks_bind {first : Parse α} {second : α → Parse β}
    (h₁ : Tracks here middle parser (first parser))
    (h₂ : ∀ value after, first parser = .ok value after →
      Tracks middle there after (second value after)) :
    Tracks here there parser ((first >>= second) parser) := by
  simp only [Bind.bind, EStateM.bind]
  cases hfirst : first parser with
  | error stop stopped =>
    rw [hfirst] at h₁
    exact h₁
  | ok value after =>
    rw [hfirst] at h₁
    exact h₁.trans (h₂ value after hfirst)

theorem tracks_pure (value : α) : Tracks here here parser ((pure value : Parse α) parser) :=
  fun _ => Iff.rfl

/-- A token that the automaton can use is consumed with the answer behind it. -/
theorem tracks_advance (h : here.read (.ok parser.current) = .ok there) :
    Tracks here there parser (advance parser) := by
  have hfails : ∀ fault, here.Fails parser.answers fault ↔
      there.Fails parser.upcoming.answer fault := fun fault => Place.fails_of_read_ok h
  unfold advance
  cases hnext : parser.upcoming.next with
  | mk answer upcoming =>
    have hfirst : parser.upcoming.answer 0 = answer := by rw [TokenStream.answer, hnext]
    cases answer with
    | error error =>
      have hread : there.read (parser.upcoming.answer 0) = .error (.lexical error) := by
        rw [hfirst]
        rfl
      exact fun fault => (hfails fault).trans (Place.fails_of_read_error hread)
    | ok token =>
      have hanswers : (⟨token, upcoming⟩ : Parser).answers = parser.upcoming.answer := by
        funext i
        cases i with
        | zero => exact hfirst.symm
        | succ i => rw [TokenStream.answer, hnext, answers]
      intro fault
      rw [hanswers]
      exact hfails fault

theorem tracks_refuse {expected : Expected}
    (h : here.read (.ok parser.current) = .error (.grammar expected parser.current)) :
    Tracks here there parser ((refuse expected : Parse α) parser) :=
  fun _ => Place.fails_of_read_error h

theorem tracks_accept {value : α} (h : here.read (.ok parser.current) = .ok there) :
    Tracks here there parser (accept value parser) :=
  tracks_bind (tracks_advance h) fun _ _ _ => tracks_pure value

/-- Where the grammar asks for one kind of token, and at a place that could go on otherwise too. -/
theorem tracks_expect {kind : TokenKind} {expected : Expected}
    (hexpected : here.expected? = some expected) (hnext : here.next? kind = some there)
    (number : kind ≠ .number)
    (hother : parser.current.kind ≠ kind → here.next? parser.current.kind = none) :
    Tracks here there parser (expect kind expected parser) := by
  unfold expect
  split
  · next hkind =>
    subst hkind
    exact tracks_advance (Place.read_accepted hnext fun h => absurd h number)
  · next hkind => exact tracks_refuse (Place.read_refused hexpected (hother hkind))

theorem tracks_relation : Tracks .relation .right parser (relation parser) := by
  unfold relation
  have hsome := relationOf?_isSome parser.current.kind
  split
  · next relation h =>
    rw [h] at hsome
    refine tracks_accept (Place.read_accepted (if_pos hsome.symm) fun number => ?_)
    rw [number] at h
    cases h
  · next h =>
    rw [h] at hsome
    exact tracks_refuse (Place.read_refused rfl (if_neg (by simp [← hsome])))

/-- What a token denotes as a literal is what the automaton finds at a place for literals. -/
theorem read_literalOf {token : Token}
    (hnext : ∀ kind, here.next? kind = if isLiteralKind kind then some there else none)
    (hexpected : here.expected? = some .literal) :
    here.read (.ok token) = (literalOf token).map fun _ => there := by
  have hnext := hnext token.kind
  unfold literalOf
  split
  · next hkind =>
    rw [hkind] at hnext
    dsimp only
    split
    · next hfinite => exact Place.read_accepted (by rw [hkind, hnext]; rfl) fun _ => hfinite
    · next hfinite =>
      exact Place.read_overflow hkind (by rw [hkind, hnext]; rfl) (Bool.eq_false_iff.2 hfinite)
  · next hkind =>
    rw [hkind] at hnext
    exact Place.read_accepted (by rw [hkind, hnext]; rfl) (by rw [hkind]; exact nofun)
  · next hkind =>
    rw [hkind] at hnext
    exact Place.read_accepted (by rw [hkind, hnext]; rfl) (by rw [hkind]; exact nofun)
  all_goals
    next hkind =>
    rw [hkind] at hnext
    exact Place.read_refused hexpected (by rw [hkind, hnext]; rfl)

theorem tracks_literal
    (hnext : ∀ kind, here.next? kind = if isLiteralKind kind then some there else none)
    (hexpected : here.expected? = some .literal) :
    Tracks here there parser (literal parser) := by
  have hread : here.read (.ok parser.current) = (literalOf parser.current).map fun _ => there :=
    read_literalOf hnext hexpected
  unfold literal
  cases hliteral : literalOf parser.current with
  | ok value =>
    rw [hliteral] at hread
    exact tracks_accept hread
  | error stop =>
    rw [hliteral] at hread
    exact fun fault => Place.fails_of_read_error hread

theorem tracks_comparison : Tracks .left .joint parser (comparison parser) := by
  refine tracks_bind (tracks_expect rfl rfl nofun fun h => if_neg h) fun _ _ _ => ?_
  refine tracks_bind tracks_relation fun _ _ _ => ?_
  refine tracks_bind (tracks_literal (fun _ => rfl) rfl) fun _ _ _ => ?_
  exact tracks_pure _

/-- The recursion of conditions goes round the places of a comparison and its joint. -/
theorem tracks_condition (parser : Parser) : Tracks .left .joint parser (condition parser) := by
  have first {parser : Parser} {result : EStateM.Result Fault Parser Comparison}
      (h : comparison parser = result) : Tracks .left .joint parser result :=
    h ▸ tracks_comparison
  have again {parser : Parser} {result : EStateM.Result Fault Parser Token}
      (hand : parser.current.kind = .andWord) (h : advance parser = result) :
      Tracks .joint .left parser result :=
    h ▸ tracks_advance (Place.read_accepted (by rw [hand]; rfl) (by rw [hand]; exact nofun))
  fun_induction condition parser with
  | case1 parser fault stopped hfirst => exact first hfirst
  | case2 parser value after hfirst hand fault stopped hnext =>
    exact (first hfirst).trans (again hand hnext)
  | case3 parser value after hfirst hand token next hnext fault stopped hothers ih =>
    rw [hothers] at ih
    exact (first hfirst).trans ((again hand hnext).trans ih)
  | case4 parser value after hfirst hand token next hnext others last hothers ih =>
    rw [hothers] at ih
    exact (first hfirst).trans ((again hand hnext).trans ih)
  | case5 parser value after hfirst hand => exact first hfirst

theorem tracks_rule (parser : Parser) : Tracks .opening .finished parser (rule parser) := by
  refine tracks_bind (tracks_expect rfl rfl nofun fun h => if_neg h) fun _ parser _ => ?_
  refine tracks_bind (tracks_condition parser) fun condition parser hcondition => ?_
  have closed := (reads_of_condition_eq_ok hcondition).1
  have hjoint : parser.current.kind ≠ .thenWord → Place.joint.next? parser.current.kind = none :=
    fun h => (if_neg closed).trans (if_neg h)
  refine tracks_bind (tracks_expect rfl rfl nofun hjoint) fun _ _ _ => ?_
  refine tracks_bind (tracks_expect rfl rfl nofun fun h => if_neg h) fun _ _ _ => ?_
  refine tracks_bind (tracks_expect rfl rfl nofun fun h => if_neg h) fun _ _ _ => ?_
  refine tracks_bind (tracks_literal (fun _ => rfl) rfl) fun _ _ _ => ?_
  refine tracks_bind (tracks_expect rfl rfl nofun fun h => if_neg h) fun _ _ _ => ?_
  exact tracks_pure _

end Tracks

end Parser

/-! ## The parser of a source -/

theorem answers_of_ofStream {stream : TokenStream} {parser : Parser}
    (h : Parser.ofStream stream = .ok parser) : parser.answers = stream.answer := by
  unfold Parser.ofStream at h
  split at h
  · next token upcoming hnext =>
    cases h
    funext i
    cases i with
    | zero => rw [TokenStream.answer, hnext]; rfl
    | succ i => rw [TokenStream.answer, hnext]; rfl
  · cases h

theorem read_of_ofStream_error {stream : TokenStream} {stop : Fault}
    (h : Parser.ofStream stream = .error stop) :
    Place.opening.read (stream.answer 0) = .error stop := by
  rw [TokenStream.answer]
  unfold Parser.ofStream at h
  split at h
  · cases h
  · next error upcoming hnext =>
    cases h
    rw [hnext]
    rfl

/-- The end token of a source is answered again and again. -/
theorem answer_end_repeats (source : String) {i j : Nat} {token : Token}
    (h : (Scanner.ofSource source).answer i = .ok token) (isEnd : token.isEnd = true)
    (hij : i ≤ j) : (Scanner.ofSource source).answer j = .ok token := by
  induction hij with
  | refl => exact h
  | step _ ih =>
    rw [Lexis.answer_stream] at ih ⊢
    exact TokenStream.answer_succ_of_isEnd (Lexis.isEnd_of_mem_stream _) ih isEnd

/-- A complete rule at the end of a text: nothing can go wrong there. -/
theorem not_fails_atEnd (position : Nat) (fault : Fault) :
    ¬ Place.finished.Fails (Parser.atEnd position).answers fault := by
  have last (i : Nat) : (Parser.atEnd position).answers i = .ok (.endOfInput position) := by
    cases i with
    | zero => rfl
    | succ i =>
      rw [Parser.answers]
      induction i with
      | zero => rfl
      | succ i ih => exact ih
  have reached (count : Nat) :
      Place.finished.reach (Parser.atEnd position).answers count = .ok .finished := by
    induction count with
    | zero => rfl
    | succ count ih =>
      rw [Place.reach, ih, last]
      rfl
  intro h
  obtain ⟨count, hcount⟩ := h
  rw [reached] at hcount
  cases hcount

/-- The parser refuses a source with the fault that stops the automaton. -/
theorem parse_eq_error_iff {source : String} {fault : Fault} :
    Rule.parse source = .error fault ↔
      Place.opening.Fails (Scanner.ofSource source).answer fault := by
  have hanswer : (Scanner.ofSource source).answer = (Scanner.ofSource source).stream.answer :=
    funext (Lexis.answer_stream _)
  rw [hanswer, Rule.parse, Rule.ofStream]
  cases hparser : Parser.ofStream (Scanner.ofSource source).stream with
  | error stop =>
    have first := read_of_ofStream_error hparser
    rw [Place.fails_of_read_error first]
    simp [bind, Except.bind, eq_comm]
  | ok parser =>
    rw [← answers_of_ofStream hparser]
    have tracks := Parser.tracks_rule parser
    cases hrule : parser.rule with
    | error stop stopped =>
      rw [hrule] at tracks
      rw [tracks fault]
      simp [bind, Except.bind, hrule, throw, throwThe, MonadExceptOf.throw, eq_comm]
    | ok rule last =>
      obtain ⟨-, -, -, rfl⟩ := rule_of_source_iff.1 ⟨parser, hparser, hrule⟩
      rw [hrule] at tracks
      have never := mt (tracks fault).1 (not_fails_atEnd source.length fault)
      simp [bind, Except.bind, hrule, never, pure, Except.pure]

/-! ## Beginnings of sentences -/

/-- The kinds of the tokens among the first answers. -/
def kindsBefore (answers : Nat → TokenResult) (count : Nat) : List TokenKind :=
  (List.range count).filterMap fun i => (answers i).toOption.map Token.kind

theorem kindsBefore_succ {answers : Nat → TokenResult} {i : Nat} {token : Token}
    (h : answers i = .ok token) :
    kindsBefore answers (i + 1) = kindsBefore answers i ++ [token.kind] := by
  rw [kindsBefore, List.range_succ, List.filterMap_append, kindsBefore]
  simp [h, Except.toOption]

/-- Behind these kinds, a rule goes on with the kinds that are asked for and with no others. -/
def AsksFor (kinds : List TokenKind) (expected : Expected) : Prop :=
  ∀ kind, Viable (kinds ++ [kind]) ↔ expected.admits kind = true

/-- What is wrong with an answer, seen from all rules and not from a place in one. -/
inductive Stops (answers : Nat → TokenResult) (i : Nat) : Fault → Prop
  | lexical {error : Lexis.LexicalError} (h : answers i = .error error) :
      Stops answers i (.lexical error)
  /-- No rule begins with the tokens up to this one. -/
  | grammar {token : Token} {expected : Expected} (h : answers i = .ok token)
      (dead : ¬ Viable (kindsBefore answers (i + 1))) : Stops answers i (.grammar expected token)
  /-- The number that stands for a literal is too large. -/
  | overflow {token : Token} (h : answers i = .ok token) (number : token.kind = .number)
      (asked : AsksFor (kindsBefore answers i) .literal)
      (infinite : (numberOf token).isFinite = false) :
      Stops answers i (.lexical ⟨.numberOutOfRange token.text, token.position⟩)

section Reached

variable {answers : Nat → TokenResult} {i : Nat} {place next : Place} {fault : Fault}

theorem asksFor_of_walk {kinds : List TokenKind} {expected : Expected}
    (h : Place.opening.walk? kinds = some place) (hexpected : place.expected? = some expected) :
    AsksFor kinds expected := by
  intro kind
  rw [viable_concat_iff h, Place.isSome_next?_eq_admits hexpected]

/-- Short of the end of a rule, the place reached is the place behind the kinds read. -/
theorem walk?_of_reach (h : Place.opening.reach answers i = .ok place)
    (unfinished : place ≠ .finished) :
    Place.opening.walk? (kindsBefore answers i) = some place := by
  induction i generalizing place with
  | zero =>
    cases h
    rfl
  | succ i ih =>
    obtain ⟨before, hbefore, hread⟩ := Place.reach_eq_ok_iff.1 h
    have inside := Place.ne_finished_of_read hread unfinished
    obtain ⟨token, hanswer, hnext, -⟩ := Place.token_of_read inside hread
    rw [kindsBefore_succ hanswer, Place.walk?_concat, ih hbefore inside]
    exact hnext

/-- A complete rule has its end token. -/
theorem exists_end_of_reach (h : Place.opening.reach answers i = .ok .finished) :
    ∃ j < i, ∃ token, answers j = .ok token ∧ token.isEnd = true := by
  induction i with
  | zero => cases h
  | succ i ih =>
    obtain ⟨before, hbefore, hread⟩ := Place.reach_eq_ok_iff.1 h
    by_cases finished : before = .finished
    · rw [finished] at hbefore
      obtain ⟨j, hj, hend⟩ := ih hbefore
      exact ⟨j, Nat.lt_succ_of_lt hj, hend⟩
    · obtain ⟨token, hanswer, hnext, -⟩ := Place.token_of_read finished hread
      exact ⟨i, Nat.lt_succ_self i, token, hanswer,
        Lexis.Token.isEnd_iff.2 (Place.kind_of_next?_finished hnext)⟩

/-- What stops the automaton is wrong with the answer. -/
theorem stops_of_read_error (h : Place.opening.walk? (kindsBefore answers i) = some place)
    (unfinished : place ≠ .finished) (hread : place.read (answers i) = .error fault) :
    Stops answers i fault ∧
      ∀ expected found, fault = .grammar expected found →
        AsksFor (kindsBefore answers i) expected := by
  cases hanswer : answers i with
  | error error =>
    rw [hanswer] at hread
    cases hread
    exact ⟨.lexical hanswer, nofun⟩
  | ok token =>
    rw [hanswer] at hread
    rcases Place.read_token_cases token unfinished with
      ⟨expected, hexpected, hnext, refused⟩ | ⟨number, infinite, hexpected, overflow⟩ |
        ⟨next, -, -, accepted⟩
    · rw [refused] at hread
      cases hread
      refine ⟨.grammar hanswer ?_, ?_⟩
      · rw [kindsBefore_succ hanswer, viable_concat_iff h, hnext]
        exact nofun
      · rintro _ _ ⟨⟩
        exact asksFor_of_walk h hexpected
    · rw [overflow] at hread
      cases hread
      exact ⟨.overflow hanswer number (asksFor_of_walk h hexpected) infinite, nofun⟩
    · rw [accepted] at hread
      cases hread

/-- Nothing is wrong with an answer that the automaton can use. -/
theorem not_stops_of_read_ok (h : Place.opening.walk? (kindsBefore answers i) = some place)
    (unfinished : place ≠ .finished) (hread : place.read (answers i) = .ok next) :
    ¬ Stops answers i fault := by
  obtain ⟨token, hanswer, hnext, hfinite⟩ := Place.token_of_read unfinished hread
  intro stops
  cases stops with
  | lexical hanswer' =>
    rw [hanswer] at hanswer'
    cases hanswer'
  | grammar hanswer' dead =>
    apply dead
    rw [kindsBefore_succ hanswer, viable_concat_iff h, hnext]
    rfl
  | overflow hanswer' number asked infinite =>
    rw [hanswer] at hanswer'
    cases hanswer'
    rw [hfinite number] at infinite
    cases infinite

/-- Nothing is wrong with the answers before the place reached. -/
theorem not_stops_of_reach (h : Place.opening.reach answers i = .ok place)
    (unfinished : place ≠ .finished) : ∀ j < i, ∀ other, ¬ Stops answers j other := by
  induction i generalizing place with
  | zero => exact nofun
  | succ i ih =>
    obtain ⟨before, hbefore, hread⟩ := Place.reach_eq_ok_iff.1 h
    have inside := Place.ne_finished_of_read hread unfinished
    intro j hj other
    rcases Nat.lt_succ_iff_lt_or_eq.1 hj with hj | rfl
    · exact ih hbefore inside j hj other
    · exact not_stops_of_read_ok (walk?_of_reach hbefore inside) inside hread

/-- A source goes wrong before its end token, and not behind it. -/
theorem ne_finished_of_read_error {source : String}
    (h : Place.opening.reach (Scanner.ofSource source).answer i = .ok place)
    (hread : place.read ((Scanner.ofSource source).answer i) = .error fault) :
    place ≠ .finished := by
  intro ended
  subst ended
  obtain ⟨j, hj, token, hanswer, isEnd⟩ := exists_end_of_reach h
  rw [answer_end_repeats source hanswer isEnd hj.le] at hread
  cases hread

end Reached

/--
**The earliest fault.** When a source is refused, the reason is the first answer of its scanner that
anything is wrong with. The tokens before begin some rule, a fault of grammar names the kinds with
which such a rule goes on, and what comes later does not matter.
-/
theorem parse_reports_earliest {source : String} {fault : Fault}
    (h : Rule.parse source = .error fault) :
    ∃ i, Stops (Scanner.ofSource source).answer i fault ∧
      (∀ j < i, ∀ other, ¬ Stops (Scanner.ofSource source).answer j other) ∧
      Viable (kindsBefore (Scanner.ofSource source).answer i) ∧
      (∀ expected found, fault = .grammar expected found →
        AsksFor (kindsBefore (Scanner.ofSource source).answer i) expected) ∧
      ∀ source', (∀ j ≤ i, (Scanner.ofSource source').answer j
          = (Scanner.ofSource source).answer j) →
        Rule.parse source' = .error fault := by
  obtain ⟨i, place, hreach, hread⟩ := Place.exists_read_error (parse_eq_error_iff.1 h)
  have unfinished := ne_finished_of_read_error hreach hread
  have hwalk := walk?_of_reach hreach unfinished
  obtain ⟨stops, asks⟩ := stops_of_read_error hwalk unfinished hread
  refine ⟨i, stops, not_stops_of_reach hreach unfinished, viable_iff.2 ⟨place, hwalk⟩, asks, ?_⟩
  intro source' agree
  refine parse_eq_error_iff.2 ⟨i + 1, ?_⟩
  rw [Place.reach_congr fun j hj => agree j (Nat.le_of_lt_succ hj), Place.reach, hreach]
  exact hread

/-- The word behind the relation is at fault, whatever the tokens behind it are. -/
theorem parse_reports_missing_literal :
    Rule.parse "if age > then = = 1e" = .error (.grammar .literal ⟨.thenWord, "then", 9⟩) ∧
      ∃ i, Stops (Scanner.ofSource "if age > then = = 1e").answer i
        (.grammar .literal ⟨.thenWord, "then", 9⟩) := by
  have refused : Rule.parse "if age > then = = 1e"
      = .error (.grammar .literal ⟨.thenWord, "then", 9⟩) := by decide +kernel
  obtain ⟨i, stops, -⟩ := parse_reports_earliest refused
  exact ⟨refused, i, stops⟩

end Rulebook
