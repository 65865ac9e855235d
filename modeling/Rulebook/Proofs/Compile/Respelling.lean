import Rulebook.Compile.Cache
import Rulebook.Proofs.Lexis.Respelling
import Rulebook.Proofs.Rule.EarliestFault

/-!
# Compiling a respelling

The rule of a source does not depend on which spellings the source uses, on their letter case or on
white space, and neither does the reason why a source is refused
(`respelling_compiles_alike`).
-/

namespace Rulebook

open Lexis (Token TokenKind TokenResult TokenStream Scanner IsRespelling tokenize)

/-! ## Outcomes -/

/-- Two faults differ at most in their place, and in how the token found there is spelled. -/
inductive Fault.Alike : Fault → Fault → Prop
  | same (fault : Fault) : Alike fault fault
  | lexical (cause : Lexis.LexicalCause) (position position' : Nat) :
      Alike (.lexical ⟨cause, position⟩) (.lexical ⟨cause, position'⟩)
  | grammar (expected : Expected) {found found' : Token} (h : found.Alike found') :
      Alike (.grammar expected found) (.grammar expected found')

/-- The same result, or faults that are alike. -/
inductive SameOutcome {α : Type} : Except Fault α → Except Fault α → Prop
  | ok (value : α) : SameOutcome (.ok value) (.ok value)
  | error {fault fault' : Fault} (h : fault.Alike fault') :
      SameOutcome (.error fault) (.error fault')

section SameOutcome

variable {α β : Type}

theorem SameOutcome.refl (outcome : Except Fault α) : SameOutcome outcome outcome := by
  cases outcome with
  | ok value => exact .ok value
  | error fault => exact .error (.same fault)

theorem SameOutcome.bind {first first' : Except Fault α} {second second' : α → Except Fault β}
    (h₁ : SameOutcome first first') (h₂ : ∀ value, SameOutcome (second value) (second' value)) :
    SameOutcome (first >>= second) (first' >>= second') := by
  cases h₁ with
  | ok value => exact h₂ value
  | error h => exact .error h

end SameOutcome

/-! ## Faults of respellings -/

theorem Place.read_alike (place : Place) {token token' : Token} (h : token.Alike token') :
    SameOutcome (place.read (.ok token)) (place.read (.ok token')) := by
  rw [read, read, h.kind]
  cases place.expected? with
  | none => exact .ok place
  | some expected =>
    cases place.next? token'.kind with
    | none => exact .error (.grammar expected h)
    | some next =>
      by_cases number : token'.kind = .number
      · have text : token.text = token'.text := h.text (.inr (.inl (h.kind.trans number)))
        simp only [number, true_and, numberOf, text]
        split
        · exact .error (.lexical _ _ _)
        · exact .ok next
      · simp only [number, false_and, ↓reduceIte]
        exact .ok next

theorem Place.reach_alike (place : Place) {answers answers' : Nat → TokenResult}
    (h : ∀ i, ∃ token token', answers i = .ok token ∧ answers' i = .ok token' ∧
      token.Alike token') (count : Nat) :
    SameOutcome (place.reach answers count) (place.reach answers' count) := by
  induction count with
  | zero => exact .ok place
  | succ count ih =>
    obtain ⟨token, token', hanswer, hanswer', alike⟩ := h count
    rw [reach, reach, hanswer, hanswer']
    exact ih.bind fun here => here.read_alike alike

/-! ## The outcome of a source, by its tokens -/

theorem answer_alike {tokens tokens' : List Token}
    (h : List.Forall₂ Token.Alike tokens tokens') (position position' i : Nat) :
    ∃ token token', (⟨tokens, .endOfInput position⟩ : TokenStream).answer i = .ok token ∧
      (⟨tokens', .endOfInput position'⟩ : TokenStream).answer i = .ok token' ∧
      token.Alike token' := by
  induction i generalizing tokens tokens' with
  | zero =>
    cases h with
    | nil => exact ⟨_, _, rfl, rfl, .endOfInput position position'⟩
    | cons alike => exact ⟨_, _, rfl, rfl, alike⟩
  | succ i ih =>
    cases h with
    | nil => exact ih .nil
    | cons _ others => exact ih others

/-- The answers of the scanner of a source that has tokens. -/
theorem answer_ofSource {source : String} {tokens : List Token} {close : Token}
    (h : tokenize source = .ok (tokens ++ [close])) :
    close = .endOfInput source.length ∧
      (Scanner.ofSource source).answer
        = (⟨tokens, .endOfInput source.length⟩ : TokenStream).answer := by
  obtain ⟨inner, hstream, heq⟩ := Lexis.tokenize_eq_ok_iff.1 h
  obtain ⟨rfl, hclose⟩ := List.append_inj' heq rfl
  refine ⟨List.singleton_inj.1 hclose, ?_⟩
  rw [← hstream]
  exact funext (Lexis.answer_stream _)

theorem parse_alike {source source' : String} {tokens tokens' : List Token} {close close' : Token}
    (h : tokenize source = .ok (tokens ++ [close]))
    (h' : tokenize source' = .ok (tokens' ++ [close']))
    (alike : List.Forall₂ Token.Alike tokens tokens') :
    SameOutcome (Rule.parse source) (Rule.parse source') := by
  obtain ⟨hclose, hanswer⟩ := answer_ofSource h
  obtain ⟨hclose', hanswer'⟩ := answer_ofSource h'
  cases hparse : Rule.parse source with
  | ok rule =>
    obtain ⟨all, hall, reads⟩ := parse_eq_ok_iff.1 hparse
    rw [h, Except.ok.injEq] at hall
    have ends : close.Alike close' := hclose ▸ hclose' ▸ .endOfInput _ _
    have alike' := List.rel_append alike (.cons ends .nil)
    rw [parse_eq_ok_iff.2 ⟨_, h', (hall ▸ reads).congr alike'⟩]
    exact .ok rule
  | error fault =>
    obtain ⟨count, hreach⟩ := parse_eq_error_iff.1 hparse
    have outcome := Place.opening.reach_alike
      (fun i => answer_alike alike source.length source'.length i) count
    rw [← hanswer, ← hanswer', hreach] at outcome
    generalize hreach' : Place.opening.reach (Scanner.ofSource source').answer count = result
      at outcome
    cases outcome with
    | error alike =>
      rw [parse_eq_error_iff.2 ⟨count, hreach'⟩]
      exact .error alike

/--
**Respellings.** Other spellings of the keywords and operators of a source, other letter case in
them and other white space make no difference. The tokens have the same kinds and the names,
numbers and texts that they had, and compiling gives the same stored rule or is refused for the same
reason.
-/
theorem respelling_compiles_alike {source source' : String} {tokens : List Token} {close : Token}
    (h : tokenize source = .ok (tokens ++ [close]))
    (respelled : IsRespelling tokens source'.toList) :
    (∃ tokens', tokenize source' = .ok tokens' ∧
      List.Forall₂ Token.Alike (tokens ++ [close]) tokens') ∧
    SameOutcome (compile source) (compile source') := by
  obtain ⟨tokens', h', alike⟩ := Lexis.tokenize_respelled h respelled
  have ends : close.Alike (.endOfInput source'.length) :=
    (answer_ofSource h).1 ▸ .endOfInput _ _
  refine ⟨⟨_, h', List.rel_append alike (.cons ends .nil)⟩, ?_⟩
  exact (parse_alike h h' alike).bind fun rule => .refl _

/-- Russian for English, words for symbols, capitals for small letters, and wider gaps. -/
theorem respelling_compiles_alike_russian :
    SameOutcome (compile "if x>1 then y=2") (compile "ЕСЛИ x  больше 1 То y Set 2 ") := by
  refine (@respelling_compiles_alike _ _ [⟨.ifWord, "if", 0⟩, ⟨.identifier, "x", 3⟩,
    ⟨.more, ">", 4⟩, ⟨.number, "1", 5⟩, ⟨.thenWord, "then", 7⟩, ⟨.identifier, "y", 12⟩,
    ⟨.assign, "=", 13⟩, ⟨.number, "2", 14⟩] (.endOfInput 15) ?_ ?_).2
  · decide +kernel
  · have space : Lexis.IsGap [' '] := List.forall_mem_singleton.2 (by decide)
    have spaces : Lexis.IsGap [' ', ' '] :=
      List.forall_mem_cons.2 ⟨space _ List.mem_cons_self, space⟩
    exact ⟨[], _, nofun,
      .more (.spelled (by decide : Lexis.SpelledAs .ifWord "ЕСЛИ".toList)) space nofun <|
      .more (.name rfl) spaces nofun <|
      .more (.spelled (by decide : Lexis.SpelledAs .more "больше".toList)) space nofun <|
      .more (.number rfl) space nofun <|
      .more (.spelled (by decide : Lexis.SpelledAs .thenWord "То".toList)) space nofun <|
      .more (.name rfl) space nofun <|
      .more (.spelled (by decide : Lexis.SpelledAs .assign "Set".toList)) space nofun <|
      .last (.number rfl) space, by decide⟩

end Rulebook
