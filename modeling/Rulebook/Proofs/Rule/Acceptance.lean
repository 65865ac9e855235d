import Rulebook.Proofs.Lexis.Stream
import Rulebook.Proofs.Rule.Phrase

/-!
# What the parser accepts

The parser sees its tokens one at a time, so each of its steps is described by the tokens that it
takes (`Consumes`): a step succeeds exactly when it takes tokens that read as its result
(`comparison_eq_ok_iff`, `reads_of_condition_eq_ok`, `rule_eq_ok_iff`). The tokens that lead to a
rule are those of the whole source, end token included (`yields_end_iff`), so the parser accepts
the sources whose tokens read as a rule (`parse_eq_ok_iff`).
-/

namespace Rulebook

open Lexis (Token TokenKind TokenStream StreamEnd LexicalError Scanner tokenize sourceStream)

namespace Parser

/-! ## Taking tokens -/

/-- The tokens that lead from one place of the parser to another. -/
inductive Consumes : Parser → List Token → Parser → Prop
  | nil (parser : Parser) : Consumes parser [] parser
  | cons {parser middle last : Parser} {token : Token} {tokens : List Token}
      (h : advance parser = .ok token middle) (rest : Consumes middle tokens last) :
      Consumes parser (token :: tokens) last

theorem consumes_nil_iff {parser last : Parser} : Consumes parser [] last ↔ last = parser := by
  constructor
  · rintro ⟨⟩
    rfl
  · rintro rfl
    exact .nil _

theorem consumes_cons_iff {parser last : Parser} {token : Token} {tokens : List Token} :
    Consumes parser (token :: tokens) last ↔
      ∃ middle, advance parser = .ok token middle ∧ Consumes middle tokens last := by
  constructor
  · rintro (_ | ⟨h, rest⟩)
    exact ⟨_, h, rest⟩
  · rintro ⟨middle, h, rest⟩
    exact .cons h rest

theorem consumes_singleton_iff {parser last : Parser} {token : Token} :
    Consumes parser [token] last ↔ advance parser = .ok token last := by
  rw [consumes_cons_iff]
  constructor
  · rintro ⟨middle, h, rest⟩
    obtain rfl := consumes_nil_iff.1 rest
    exact h
  · intro h
    exact ⟨last, h, .nil last⟩

theorem consumes_append_iff {parser last : Parser} {front back : List Token} :
    Consumes parser (front ++ back) last ↔
      ∃ middle, Consumes parser front middle ∧ Consumes middle back last := by
  induction front generalizing parser with
  | nil =>
    constructor
    · intro h
      exact ⟨parser, .nil parser, h⟩
    · rintro ⟨middle, h, hback⟩
      obtain rfl := consumes_nil_iff.1 h
      exact hback
  | cons token front ih =>
    rw [List.cons_append, consumes_cons_iff]
    constructor
    · rintro ⟨next, h, rest⟩
      obtain ⟨middle, hfront, hback⟩ := ih.1 rest
      exact ⟨middle, .cons h hfront, hback⟩
    · rintro ⟨middle, hfront, hback⟩
      obtain ⟨next, h, rest⟩ := consumes_cons_iff.1 hfront
      exact ⟨next, h, ih.2 ⟨middle, rest, hback⟩⟩

theorem consumes_uncons_iff {parser last : Parser} {token : Token} {tokens : List Token} :
    Consumes parser (token :: tokens) last ↔
      ∃ middle, Consumes parser [token] middle ∧ Consumes middle tokens last := by
  rw [← List.singleton_append, consumes_append_iff]

/-- A token is taken when it is current and another one comes up. -/
theorem advance_eq_ok_iff {parser after : Parser} {token : Token} :
    advance parser = .ok token after ↔
      token = parser.current ∧ ofStream parser.upcoming = .ok after := by
  unfold advance ofStream
  cases parser.upcoming.next with
  | mk result upcoming =>
    cases result with
    | error error => simp
    | ok next => simp [eq_comm]

theorem current_of_consumes {parser last : Parser} {token : Token} {tokens : List Token}
    (h : Consumes parser (token :: tokens) last) : parser.current = token := by
  obtain ⟨middle, h, -⟩ := consumes_cons_iff.1 h
  exact (advance_eq_ok_iff.1 h).1.symm

/-! ## Steps and their tokens -/

theorem bind_eq_ok_iff {α β : Type} {first : Parse α} {second : α → Parse β} {parser last : Parser}
    {result : β} :
    (first >>= second) parser = .ok result last ↔
      ∃ value middle, first parser = .ok value middle ∧ second value middle = .ok result last := by
  simp only [Bind.bind, EStateM.bind]
  cases first parser <;> simp

theorem pure_eq_ok_iff {α : Type} {value result : α} {parser last : Parser} :
    (pure value : Parse α) parser = .ok result last ↔ value = result ∧ parser = last := by
  simp [pure, EStateM.pure]

theorem accept_eq_ok_iff {α : Type} {value result : α} {parser last : Parser} :
    accept value parser = .ok result last ↔
      value = result ∧ Consumes parser [parser.current] last := by
  rw [accept, bind_eq_ok_iff, consumes_singleton_iff]
  constructor
  · rintro ⟨token, middle, h, hresult⟩
    obtain ⟨rfl, rfl⟩ := pure_eq_ok_iff.1 hresult
    rw [(advance_eq_ok_iff.1 h).1] at h
    exact ⟨rfl, h⟩
  · rintro ⟨rfl, h⟩
    exact ⟨_, _, h, rfl⟩

theorem expect_eq_ok_iff {kind : TokenKind} {expected : Expected} {parser last : Parser}
    {token : Token} :
    expect kind expected parser = .ok token last ↔
      token.kind = kind ∧ Consumes parser [token] last := by
  rw [consumes_singleton_iff, expect]
  constructor
  · intro h
    split at h
    · next hkind => exact ⟨by rw [(advance_eq_ok_iff.1 h).1, hkind], h⟩
    · cases h
  · rintro ⟨hkind, h⟩
    rw [if_pos (by rw [← (advance_eq_ok_iff.1 h).1, hkind]), h]

theorem relation_eq_ok_iff {parser last : Parser} {result : Relation} :
    relation parser = .ok result last ↔
      ∃ token, token.kind = result.kind ∧ Consumes parser [token] last := by
  unfold relation
  constructor
  · intro h
    split at h
    · next found hfound =>
      obtain ⟨rfl, htaken⟩ := accept_eq_ok_iff.1 h
      exact ⟨_, relationOf?_eq_some_iff.1 hfound, htaken⟩
    · cases h
  · rintro ⟨token, hkind, htaken⟩
    obtain rfl := current_of_consumes htaken
    rw [relationOf?_eq_some_iff.2 hkind]
    exact accept_eq_ok_iff.2 ⟨rfl, htaken⟩

theorem literalOf_eq_ok_iff {token : Token} {literal : Literal} :
    literalOf token = .ok literal ↔ ReadsLiteral token literal := by
  constructor
  · intro h
    unfold literalOf at h
    split at h
    · next hkind =>
      dsimp only at h
      split at h
      · next finite =>
        cases h
        exact .number hkind finite
      · cases h
    · next hkind => cases h; exact .identifier hkind
    · next hkind => cases h; exact .text hkind
    all_goals cases h
  · intro h
    cases h with
    | number hkind finite =>
      have finite' : (Number.Numeral.ofPlainChars token.text.toList).nearest.isFinite = true :=
        finite
      simp only [literalOf, hkind, finite', ↓reduceIte, numberOf]
    | identifier hkind => simp only [literalOf, hkind]
    | text hkind => simp only [literalOf, hkind]

theorem literal_eq_ok_iff {parser last : Parser} {result : Literal} :
    literal parser = .ok result last ↔
      ∃ token, ReadsLiteral token result ∧ Consumes parser [token] last := by
  unfold literal
  constructor
  · intro h
    split at h
    · next value hvalue =>
      obtain ⟨rfl, htaken⟩ := accept_eq_ok_iff.1 h
      exact ⟨_, literalOf_eq_ok_iff.1 hvalue, htaken⟩
    · cases h
  · rintro ⟨token, hreads, htaken⟩
    obtain rfl := current_of_consumes htaken
    rw [literalOf_eq_ok_iff.2 hreads]
    exact accept_eq_ok_iff.2 ⟨rfl, htaken⟩

/-! ## Phrases and their tokens -/

theorem comparison_eq_ok_iff {parser last : Parser} {result : Comparison} :
    comparison parser = .ok result last ↔
      ∃ tokens, ReadsComparison tokens result ∧ Consumes parser tokens last := by
  constructor
  · intro h
    obtain ⟨left, middle, hleft, h⟩ := bind_eq_ok_iff.1 h
    obtain ⟨op, middle', hop, h⟩ := bind_eq_ok_iff.1 h
    obtain ⟨right, middle'', hright, h⟩ := bind_eq_ok_iff.1 h
    obtain ⟨rfl, rfl⟩ := pure_eq_ok_iff.1 h
    obtain ⟨kind, taken⟩ := expect_eq_ok_iff.1 hleft
    obtain ⟨_, kind', taken'⟩ := relation_eq_ok_iff.1 hop
    obtain ⟨_, reads, taken''⟩ := literal_eq_ok_iff.1 hright
    exact ⟨_, .mk kind kind' reads,
      consumes_append_iff.2 ⟨_, taken, consumes_append_iff.2 ⟨_, taken', taken''⟩⟩⟩
  · rintro ⟨_, ⟨kind, kind', reads⟩, taken⟩
    obtain ⟨middle, taken₁, taken⟩ := consumes_uncons_iff.1 taken
    obtain ⟨middle', taken₂, taken₃⟩ := consumes_uncons_iff.1 taken
    exact bind_eq_ok_iff.2 ⟨_, _, expect_eq_ok_iff.2 ⟨kind, taken₁⟩,
      bind_eq_ok_iff.2 ⟨_, _, relation_eq_ok_iff.2 ⟨_, kind', taken₂⟩,
        bind_eq_ok_iff.2 ⟨_, _, literal_eq_ok_iff.2 ⟨_, reads, taken₃⟩, rfl⟩⟩⟩

/-- What one round of a condition does. -/
theorem condition_eq_ok_cases {parser last : Parser} {result : List Comparison} :
    condition parser = .ok result last ↔
      ∃ first after, comparison parser = .ok first after ∧
        (after.current.kind ≠ .andWord ∧ result = [first] ∧ last = after ∨
          after.current.kind = .andWord ∧ ∃ joint next others, advance after = .ok joint next ∧
            condition next = .ok others last ∧ result = first :: others) := by
  rw [condition]
  -- The matches carry their own equations, so their cases are split and not rewritten.
  constructor
  · intro h
    split at h
    · cases h
    · next first after hfirst =>
      refine ⟨first, after, hfirst, ?_⟩
      split at h
      · next hand =>
        split at h
        · cases h
        · next joint next hnext =>
          split at h
          · cases h
          · next others last' hothers =>
            cases h
            exact .inr ⟨hand, joint, next, others, hnext, hothers, rfl⟩
      · next hand =>
        cases h
        exact .inl ⟨hand, rfl, rfl⟩
  · rintro ⟨first, after, hfirst, h⟩
    split
    · next fault stopped hfirst' => rw [hfirst] at hfirst'; cases hfirst'
    · next first' after' hfirst' =>
      rw [hfirst] at hfirst'
      cases hfirst'
      rcases h with ⟨hand, rfl, rfl⟩ | ⟨hand, joint, next, others, hnext, hothers, rfl⟩
      · rw [dif_neg hand]
      · rw [dif_pos hand]
        split
        · next fault stopped hnext' => rw [hnext] at hnext'; cases hnext'
        · next joint' next' hnext' =>
          rw [hnext] at hnext'
          cases hnext'
          rw [hothers]

theorem reads_of_condition_eq_ok {parser last : Parser} {result : List Comparison}
    (h : condition parser = .ok result last) :
    last.current.kind ≠ .andWord ∧
      ∃ tokens, ReadsCondition tokens result ∧ Consumes parser tokens last := by
  induction result generalizing parser with
  | nil =>
    obtain ⟨first, after, -, ⟨-, hresult, -⟩ | ⟨-, joint, next, others, -, -, hresult⟩⟩ :=
      condition_eq_ok_cases.1 h
    all_goals cases hresult
  | cons comparison result ih =>
    obtain ⟨first, after, hfirst, h⟩ := condition_eq_ok_cases.1 h
    obtain ⟨tokens, reads, taken⟩ := comparison_eq_ok_iff.1 hfirst
    rcases h with ⟨hand, hresult, rfl⟩ | ⟨hand, joint, next, others, hnext, hothers, hresult⟩
    · cases hresult
      exact ⟨hand, tokens, .last reads, taken⟩
    · cases hresult
      obtain ⟨closed, rest, reads', taken'⟩ := ih hothers
      have kind : joint.kind = .andWord := by rw [(advance_eq_ok_iff.1 hnext).1, hand]
      exact ⟨closed, _, .more reads kind reads',
        consumes_append_iff.2 ⟨after, taken, .cons hnext taken'⟩⟩

theorem condition_eq_ok_of_reads {tokens : List Token} {result : List Comparison}
    (reads : ReadsCondition tokens result) :
    ∀ {parser last : Parser}, Consumes parser tokens last → last.current.kind ≠ .andWord →
      condition parser = .ok result last := by
  induction reads with
  | last reads =>
    intro parser last taken closed
    exact condition_eq_ok_cases.2 ⟨_, last, comparison_eq_ok_iff.2 ⟨_, reads, taken⟩,
      .inl ⟨closed, rfl, rfl⟩⟩
  | more reads kind _ ih =>
    intro parser last taken closed
    obtain ⟨after, taken₁, taken⟩ := consumes_append_iff.1 taken
    obtain ⟨next, hnext, taken₂⟩ := consumes_cons_iff.1 taken
    have hand : after.current.kind = .andWord := by rw [← (advance_eq_ok_iff.1 hnext).1, kind]
    exact condition_eq_ok_cases.2 ⟨_, after, comparison_eq_ok_iff.2 ⟨_, reads, taken₁⟩,
      .inr ⟨hand, _, next, _, hnext, ih taken₂ closed, rfl⟩⟩

theorem rule_eq_ok_iff {parser last : Parser} {result : Rule} :
    rule parser = .ok result last ↔
      ∃ tokens, ReadsRule tokens result ∧ Consumes parser tokens last := by
  constructor
  · intro h
    obtain ⟨opening, middle, h₁, h⟩ := bind_eq_ok_iff.1 h
    obtain ⟨condition, middle, h₂, h⟩ := bind_eq_ok_iff.1 h
    obtain ⟨joint, middle, h₃, h⟩ := bind_eq_ok_iff.1 h
    obtain ⟨target, middle, h₄, h⟩ := bind_eq_ok_iff.1 h
    obtain ⟨assign, middle, h₅, h⟩ := bind_eq_ok_iff.1 h
    obtain ⟨value, middle, h₆, h⟩ := bind_eq_ok_iff.1 h
    obtain ⟨close, middle, h₇, h⟩ := bind_eq_ok_iff.1 h
    obtain ⟨rfl, rfl⟩ := pure_eq_ok_iff.1 h
    obtain ⟨kind₁, taken₁⟩ := expect_eq_ok_iff.1 h₁
    obtain ⟨-, tokens, reads, taken₂⟩ := reads_of_condition_eq_ok h₂
    obtain ⟨kind₃, taken₃⟩ := expect_eq_ok_iff.1 h₃
    obtain ⟨kind₄, taken₄⟩ := expect_eq_ok_iff.1 h₄
    obtain ⟨kind₅, taken₅⟩ := expect_eq_ok_iff.1 h₅
    obtain ⟨_, reads', taken₆⟩ := literal_eq_ok_iff.1 h₆
    obtain ⟨kind₇, taken₇⟩ := expect_eq_ok_iff.1 h₇
    refine ⟨_, .mk kind₁ reads kind₃ kind₄ kind₅ reads' kind₇, ?_⟩
    have closing := consumes_append_iff.2 ⟨_, taken₅, consumes_append_iff.2 ⟨_, taken₆, taken₇⟩⟩
    have assigned := consumes_append_iff.2 ⟨_, taken₃, consumes_append_iff.2 ⟨_, taken₄, closing⟩⟩
    exact consumes_append_iff.2 ⟨_, taken₁, consumes_append_iff.2 ⟨_, taken₂, assigned⟩⟩
  · rintro ⟨_, ⟨kind₁, reads, kind₃, kind₄, kind₅, reads', kind₇⟩, taken⟩
    obtain ⟨middle₁, taken₁, taken⟩ := consumes_uncons_iff.1 taken
    obtain ⟨middle₂, taken₂, taken⟩ := consumes_append_iff.1 taken
    have closed : middle₂.current.kind ≠ .andWord := by
      rw [current_of_consumes taken, kind₃]
      exact nofun
    obtain ⟨middle₃, taken₃, taken⟩ := consumes_uncons_iff.1 taken
    obtain ⟨middle₄, taken₄, taken⟩ := consumes_uncons_iff.1 taken
    obtain ⟨middle₅, taken₅, taken⟩ := consumes_uncons_iff.1 taken
    obtain ⟨middle₆, taken₆, taken₇⟩ := consumes_uncons_iff.1 taken
    exact bind_eq_ok_iff.2 ⟨_, _, expect_eq_ok_iff.2 ⟨kind₁, taken₁⟩,
      bind_eq_ok_iff.2 ⟨_, _, condition_eq_ok_of_reads reads taken₂ closed,
      bind_eq_ok_iff.2 ⟨_, _, expect_eq_ok_iff.2 ⟨kind₃, taken₃⟩,
      bind_eq_ok_iff.2 ⟨_, _, expect_eq_ok_iff.2 ⟨kind₄, taken₄⟩,
      bind_eq_ok_iff.2 ⟨_, _, expect_eq_ok_iff.2 ⟨kind₅, taken₅⟩,
      bind_eq_ok_iff.2 ⟨_, _, literal_eq_ok_iff.2 ⟨_, reads', taken₆⟩,
      bind_eq_ok_iff.2 ⟨_, _, expect_eq_ok_iff.2 ⟨kind₇, taken₇⟩, rfl⟩⟩⟩⟩⟩⟩⟩

/-! ## The tokens of a stream -/

/-- A parser that starts at the stream takes the tokens and gets to `last`. -/
def Yields (stream : TokenStream) (tokens : List Token) (last : Parser) : Prop :=
  ∃ parser, ofStream stream = .ok parser ∧ Consumes parser tokens last

theorem yields_cons_iff {stream : TokenStream} {parser last : Parser} {token : Token}
    {tokens : List Token} (h : ofStream stream = .ok parser) :
    Yields stream (token :: tokens) last ↔
      token = parser.current ∧ Yields parser.upcoming tokens last := by
  constructor
  · rintro ⟨first, hfirst, taken⟩
    rw [h, Except.ok.injEq] at hfirst
    subst hfirst
    obtain ⟨middle, hnext, taken⟩ := consumes_cons_iff.1 taken
    obtain ⟨current, hnext⟩ := advance_eq_ok_iff.1 hnext
    exact ⟨current, middle, hnext, taken⟩
  · rintro ⟨current, middle, hnext, taken⟩
    exact ⟨parser, h, .cons (advance_eq_ok_iff.2 ⟨current, hnext⟩) taken⟩

/-- A stream without tokens that fails yields nothing, as it is no stream that ends. -/
theorem yields_failure_iff {error : LexicalError} {tokens inner : List Token} {last : Parser}
    {p : Nat → Prop} :
    Yields ⟨[], .failure error⟩ tokens last ↔
      ∃ position, (⟨[], .failure error⟩ : TokenStream) = ⟨inner, .endOfInput position⟩ ∧
        p position := by
  constructor
  · rintro ⟨parser, h, -⟩
    cases h
  · rintro ⟨position, h, -⟩
    cases h

/-- Where a parser is when it has taken everything. -/
def atEnd (position : Nat) : Parser :=
  ⟨.endOfInput position, ⟨[], .endOfInput position⟩⟩

theorem ofStream_token (token : Token) (tokens : List Token) (final : StreamEnd) :
    ofStream ⟨token :: tokens, final⟩ = .ok ⟨token, tokens, final⟩ := rfl

theorem ofStream_endOfInput (position : Nat) :
    ofStream ⟨[], .endOfInput position⟩ = .ok (atEnd position) := rfl

/--
A parser takes tokens up to an end token, and no further one, when these are the tokens of its
stream and the end of the text is behind them.
-/
theorem yields_end_iff {tokens : List Token} {close : Token} {last : Parser} {stream : TokenStream}
    (inner : ∀ token ∈ tokens, token.isEnd = false) (isEnd : close.isEnd = true)
    (inner' : ∀ token ∈ stream.tokens, token.isEnd = false) :
    Yields stream (tokens ++ [close]) last ↔
      ∃ position, stream = ⟨tokens, .endOfInput position⟩ ∧ close = .endOfInput position ∧
        last = atEnd position := by
  -- The end of the text repeats: a stream that ends early has to be told from one that ends here.
  induction tokens generalizing stream with
  | nil =>
    rw [List.nil_append]
    match stream with
    | ⟨first :: rest, final⟩ =>
      have more : first.isEnd = false := inner' first List.mem_cons_self
      rw [yields_cons_iff (ofStream_token first rest final)]
      constructor
      · rintro ⟨rfl, -⟩
        rw [isEnd] at more
        cases more
      · rintro ⟨position, h, -⟩
        cases h
    | ⟨[], .endOfInput position⟩ =>
      rw [yields_cons_iff (ofStream_endOfInput position)]
      constructor
      · rintro ⟨rfl, parser, h, taken⟩
        cases h
        exact ⟨position, rfl, rfl, consumes_nil_iff.1 taken⟩
      · rintro ⟨_, ⟨⟩, rfl, rfl⟩
        exact ⟨rfl, _, rfl, .nil _⟩
    | ⟨[], .failure error⟩ => exact yields_failure_iff
  | cons token tokens ih =>
    rw [List.cons_append]
    have more : token.isEnd = false := inner token List.mem_cons_self
    match stream with
    | ⟨first :: rest, final⟩ =>
      rw [yields_cons_iff (ofStream_token first rest final),
        ih (fun token h => inner token (List.mem_cons_of_mem _ h))
          fun token h => inner' token (List.mem_cons_of_mem _ h)]
      constructor
      · rintro ⟨rfl, position, ⟨⟩, rfl, rfl⟩
        exact ⟨position, rfl, rfl, rfl⟩
      · rintro ⟨position, ⟨⟩, rfl, rfl⟩
        exact ⟨rfl, position, rfl, rfl, rfl⟩
    | ⟨[], .endOfInput position⟩ =>
      rw [yields_cons_iff (ofStream_endOfInput position)]
      constructor
      · rintro ⟨rfl, -⟩
        cases more
      · rintro ⟨_, h, -⟩
        cases h
    | ⟨[], .failure error⟩ => exact yields_failure_iff

end Parser

/-! ## The end token of a rule -/

theorem Relation.kind_ne_endOfInput (relation : Relation) : relation.kind ≠ .endOfInput := by
  cases relation <;> exact nofun

theorem isEnd_of_kind {token : Token} {kind : TokenKind} (h : token.kind = kind)
    (more : kind ≠ .endOfInput) : token.isEnd = false := by
  simp [Token.isEnd, h, more]

theorem ReadsLiteral.isEnd {token : Token} {literal : Literal} (h : ReadsLiteral token literal) :
    token.isEnd = false := by
  cases h with
  | number kind => exact isEnd_of_kind kind nofun
  | identifier kind => exact isEnd_of_kind kind nofun
  | text kind => exact isEnd_of_kind kind nofun

theorem ReadsComparison.isEnd {tokens : List Token} {comparison : Comparison}
    (h : ReadsComparison tokens comparison) : ∀ token ∈ tokens, token.isEnd = false := by
  obtain ⟨hleft, hop, hright⟩ := h
  simp only [List.forall_mem_cons]
  exact ⟨isEnd_of_kind hleft nofun, isEnd_of_kind hop (Relation.kind_ne_endOfInput _),
    hright.isEnd, nofun⟩

theorem ReadsCondition.isEnd {tokens : List Token} {condition : List Comparison}
    (h : ReadsCondition tokens condition) : ∀ token ∈ tokens, token.isEnd = false := by
  induction h with
  | last h => exact h.isEnd
  | more h hjoint _ ih =>
    exact List.forall_mem_append.2
      ⟨h.isEnd, List.forall_mem_cons.2 ⟨isEnd_of_kind hjoint nofun, ih⟩⟩

theorem ReadsRule.exists_close {tokens : List Token} {rule : Rule} (h : ReadsRule tokens rule) :
    ∃ inner close, tokens = inner ++ [close] ∧ (∀ token ∈ inner, token.isEnd = false) ∧
      close.isEnd = true := by
  obtain ⟨hopening, hcondition, hjoint, htarget, hassign, hvalue, hclose⟩ := h
  rename_i opening joint target assign value close tokens condition literal
  refine ⟨opening :: (tokens ++ [joint, target, assign, value]), close, by simp, ?_, ?_⟩
  · simp only [List.forall_mem_cons, List.forall_mem_append]
    exact ⟨isEnd_of_kind hopening nofun, hcondition.isEnd, isEnd_of_kind hjoint nofun,
      isEnd_of_kind htarget nofun, isEnd_of_kind hassign nofun, hvalue.isEnd, nofun⟩
  · simp [Token.isEnd, hclose]

/-! ## Main statement -/

theorem ofStream_eq_ok_iff {stream : TokenStream} {rule : Rule} :
    Rule.ofStream stream = .ok rule ↔
      ∃ parser last, Parser.ofStream stream = .ok parser ∧ parser.rule = .ok rule last := by
  unfold Rule.ofStream
  cases hparser : Parser.ofStream stream with
  | error fault => simp [bind, Except.bind]
  | ok parser => cases hrule : parser.rule with
    | error fault stopped => simp [bind, Except.bind, hrule, throw, throwThe, MonadExceptOf.throw]
    | ok result last => simp [bind, Except.bind, hrule, pure, Except.pure]

/-- A parser that starts at a stream takes all its tokens and stops at the end of the text. -/
theorem rule_of_stream_iff {stream : TokenStream} {rule : Rule} {last : Parser}
    (inner : ∀ token ∈ stream.tokens, token.isEnd = false) :
    (∃ parser, Parser.ofStream stream = .ok parser ∧ parser.rule = .ok rule last) ↔
      ∃ position, stream.close = .endOfInput position ∧
        ReadsRule (stream.tokens ++ [.endOfInput position]) rule ∧ last = .atEnd position := by
  simp only [Parser.rule_eq_ok_iff]
  constructor
  · rintro ⟨parser, hparser, tokens, reads, taken⟩
    obtain ⟨tokens, close, rfl, inner', isEnd⟩ := reads.exists_close
    obtain ⟨position, rfl, rfl, rfl⟩ :=
      (Parser.yields_end_iff inner' isEnd inner).1 ⟨parser, hparser, taken⟩
    exact ⟨position, rfl, reads, rfl⟩
  · rintro ⟨position, hclose, reads, rfl⟩
    have hstream : stream = ⟨stream.tokens, .endOfInput position⟩ := by rw [← hclose]
    obtain ⟨parser, hparser, taken⟩ :=
      (Parser.yields_end_iff inner rfl inner).2 ⟨position, hstream, rfl, rfl⟩
    exact ⟨parser, hparser, _, reads, taken⟩

/-- The parser takes all tokens of the source and stops behind its last character. -/
theorem rule_of_source_iff {source : String} {rule : Rule} {last : Parser} :
    (∃ parser, Parser.ofStream (sourceStream source) = .ok parser ∧ parser.rule = .ok rule last) ↔
      ∃ tokens, tokenize source = .ok tokens ∧ ReadsRule tokens rule ∧
        last = .atEnd source.length := by
  rw [rule_of_stream_iff (Lexis.isEnd_of_mem_sourceStream source)]
  simp only [Lexis.tokenize_eq_ok_iff]
  constructor
  · rintro ⟨position, hclose, reads, rfl⟩
    obtain rfl := Lexis.endOfInput_sourceStream hclose
    exact ⟨_, ⟨_, by rw [← hclose], rfl⟩, reads, rfl⟩
  · rintro ⟨_, ⟨tokens, hstream, rfl⟩, reads, rfl⟩
    exact ⟨source.length, by rw [hstream], by rw [hstream]; exact reads, rfl⟩

theorem parse_eq_ok_iff {source : String} {rule : Rule} :
    Rule.parse source = .ok rule ↔
      ∃ tokens, tokenize source = .ok tokens ∧ ReadsRule tokens rule := by
  rw [Rule.parse, ofStream_eq_ok_iff, exists_comm]
  constructor
  · rintro ⟨last, h⟩
    obtain ⟨tokens, htokens, reads, -⟩ := rule_of_source_iff.1 h
    exact ⟨tokens, htokens, reads⟩
  · rintro ⟨tokens, htokens, reads⟩
    exact ⟨_, rule_of_source_iff.2 ⟨tokens, htokens, reads, rfl⟩⟩

/--
**What the parser accepts.** A source is accepted exactly when it has tokens whose kinds match the
grammar and whose numbers are finite. The rule is the one that the tokens spell, and the parser
stops at the end token behind the last character.
-/
theorem parse_accepts_grammar (source : String) :
    ((∃ rule, Rule.parse source = .ok rule) ↔
      ∃ tokens, tokenize source = .ok tokens ∧
        tokens.map Token.kind ∈ ruleGrammar.matches' ∧
        ∀ token ∈ tokens, token.kind = .number → (numberOf token).isFinite = true) ∧
    (∀ rule, Rule.parse source = .ok rule ↔
      ∃ tokens, tokenize source = .ok tokens ∧ ReadsRule tokens rule) ∧
    (∀ rule, Rule.parse source = .ok rule →
      ∃ parser, Parser.ofScanner (Scanner.ofSource source) = .ok parser ∧
        parser.rule = .ok rule (.atEnd source.length)) := by
  refine ⟨?_, fun rule => parse_eq_ok_iff, fun rule h => ?_⟩
  · simp only [parse_eq_ok_iff]
    constructor
    · rintro ⟨rule, tokens, htokens, reads⟩
      exact ⟨tokens, htokens, exists_readsRule_iff.1 ⟨rule, reads⟩⟩
    · rintro ⟨tokens, htokens, hmatches, hfinite⟩
      obtain ⟨rule, reads⟩ := exists_readsRule_iff.2 ⟨hmatches, hfinite⟩
      exact ⟨rule, tokens, htokens, reads⟩
  · obtain ⟨tokens, htokens, reads⟩ := parse_eq_ok_iff.1 h
    exact rule_of_source_iff.2 ⟨tokens, htokens, reads, rfl⟩

end Rulebook
