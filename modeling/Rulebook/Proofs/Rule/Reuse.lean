import Rulebook.Proofs.Lexis.Concatenation
import Rulebook.Proofs.Lexis.Requests
import Rulebook.Proofs.Rule.Acceptance
import Rulebook.Proofs.Rule.Steps

/-!
# Using a parser again

A call for a rule that fails leaves the parser where it stopped, and the next call goes on from
there. Whatever the calls before did, the parser is one that could have been made afresh of the
scanner (`Parser.StandsBehind`). So a rule that it finds is a rule of the source from one of its
tokens on, and it finds at most one (`calls_find_one_rule`).

* `Parser.Stepwise.afterCalls`: what every step keeps, calls keep, by induction on their number.
* `Parser.stepwise_standsBehind`: every step keeps the parser where one could have been made.
* `endsWithRule_of_ofStream`: scanning from a token on agrees with scanning the whole source.
-/

namespace Rulebook

open Lexis (Token TokenStream LexicalError Scanner tokenize sourceStream)

namespace Parser

/-! ## Calls one after another -/

/-- The parser behind the given number of calls for a rule. -/
def afterCalls (parser : Parser) : Nat → Parser
  | 0 => parser
  | count + 1 => leftAt (rule (parser.afterCalls count))

/-- What the call with the given number gives, the first one being zero. -/
def call (parser : Parser) (number : Nat) : Except Fault Rule :=
  match rule (parser.afterCalls number) with
  | .ok result _ => .ok result
  | .error fault _ => .error fault

section Calls

variable {parser : Parser} {number : Nat}

theorem call_eq_ok_iff {result : Rule} :
    parser.call number = .ok result ↔
      ∃ last, rule (parser.afterCalls number) = .ok result last := by
  unfold call
  cases rule (parser.afterCalls number) <;> simp

theorem call_eq_error_iff {fault : Fault} :
    parser.call number = .error fault ↔
      ∃ stopped, rule (parser.afterCalls number) = .error fault stopped := by
  unfold call
  cases rule (parser.afterCalls number) <;> simp

end Calls

/-! ## What calls keep -/

section Kept

variable {property : Parser → Prop} {sort : Fault → Prop} {parser : Parser}

theorem Leaves.leftAt {α : Type} {result : EStateM.Result Fault Parser α}
    (h : Leaves property sort result) : property (leftAt result) := by
  cases result with
  | ok value after => exact h
  | error fault stopped => exact h.1

theorem Stepwise.afterCalls (h : Stepwise property sort) (hparser : property parser)
    (count : Nat) : property (parser.afterCalls count) := by
  induction count with
  | zero => exact hparser
  | succ count ih => exact (h.rule _ ih).leftAt

theorem Stepwise.sort_of_call (h : Stepwise property sort) (hparser : property parser)
    {number : Nat} {fault : Fault} (hcall : parser.call number = .error fault) : sort fault := by
  obtain ⟨stopped, hrule⟩ := call_eq_error_iff.1 hcall
  have kept := h.rule _ (h.afterCalls hparser number)
  rw [hrule] at kept
  exact kept.2

end Kept

/-! ## Where a parser stands -/

/-- The parser could have been made afresh of the scanner, behind some requests. -/
def StandsBehind (scanner : Scanner) (parser : Parser) : Prop :=
  ∃ count, ofScanner (scanner.after count) = .ok parser

/-- The stream in a parser stands for the scanner that the parser asks. -/
theorem ofScanner_eq_ok_iff {scanner : Scanner} {parser : Parser} :
    ofScanner scanner = .ok parser ↔
      scanner.next.1 = .ok parser.current ∧ scanner.next.2.stream = parser.upcoming := by
  unfold ofScanner ofStream
  rw [← Lexis.next_stream]
  cases scanner.next.1 with
  | error error => simp
  | ok token =>
    simp only [Except.ok.injEq]
    constructor
    · rintro rfl
      exact ⟨rfl, rfl⟩
    · rintro ⟨rfl, upcoming⟩
      rw [upcoming]

/-- What a step can report: a lexical error only from the scanner, or about a number. -/
inductive Reported (scanner : Scanner) : Fault → Prop
  | scanned {request : Nat} {error : LexicalError} (h : scanner.answer request = .error error) :
      Reported scanner (.lexical error)
  | overflow (text : String) (position : Nat) :
      Reported scanner (.lexical ⟨.numberOutOfRange text, position⟩)
  | grammar (expected : Expected) (found : Token) : Reported scanner (.grammar expected found)

theorem stepwise_standsBehind (scanner : Scanner) :
    Stepwise (StandsBehind scanner) (Reported scanner) where
  advance parser stands := by
    obtain ⟨count, hcount⟩ := stands
    obtain ⟨-, upcoming⟩ := ofScanner_eq_ok_iff.1 hcount
    rw [← Scanner.after_succ] at upcoming
    have hnext := Lexis.next_stream (scanner.after (count + 1))
    rw [upcoming] at hnext
    unfold advance
    rw [← hnext]
    cases hanswer : (scanner.after (count + 1)).next.1 with
    | ok token => exact ⟨count + 1, ofScanner_eq_ok_iff.2 ⟨hanswer, rfl⟩⟩
    | error error =>
      -- The stream does not move either, so the parser stays what it is.
      rw [hanswer] at hnext
      refine ⟨⟨count, ?_⟩, .scanned (by rw [Scanner.answer_eq, hanswer])⟩
      rw [TokenStream.eq_of_next_error hnext.symm]
      exact hcount
  grammar := .grammar
  overflow := .overflow

end Parser

/-! ## Rules of a part of the source -/

theorem ReadsRule.exists_opening {tokens : List Token} {rule : Rule} (h : ReadsRule tokens rule) :
    ∃ opening rest, tokens = opening :: rest ∧ opening.kind = .ifWord := by
  obtain ⟨kind, -⟩ := h
  exact ⟨_, _, rfl, kind⟩

theorem ofStream_eq_ok_iff_reads {stream : TokenStream} {rule : Rule}
    (inner : ∀ token ∈ stream.tokens, token.isEnd = false) :
    Rule.ofStream stream = .ok rule ↔ ∃ position, stream.close = .endOfInput position ∧
      ReadsRule (stream.tokens ++ [.endOfInput position]) rule := by
  rw [ofStream_eq_ok_iff, exists_comm]
  simp only [rule_of_stream_iff inner]
  constructor
  · rintro ⟨_, position, hclose, reads, -⟩
    exact ⟨position, hclose, reads⟩
  · rintro ⟨position, hclose, reads⟩
    exact ⟨_, position, hclose, reads, rfl⟩

theorem exists_opening_of_ofStream {stream : TokenStream} {rule : Rule}
    (inner : ∀ token ∈ stream.tokens, token.isEnd = false)
    (h : Rule.ofStream stream = .ok rule) :
    ∃ token back, stream.tokens = token :: back ∧ token.kind = .ifWord := by
  obtain ⟨position, -, reads⟩ := (ofStream_eq_ok_iff_reads inner).1 h
  obtain ⟨opening, rest, heq, kind⟩ := reads.exists_opening
  cases htokens : stream.tokens with
  | nil =>
    rw [htokens] at heq
    cases heq
    cases kind
  | cons token back =>
    rw [htokens, List.cons_append, List.cons.injEq] at heq
    exact ⟨token, back, rfl, heq.1 ▸ kind⟩

/-- Where the tokens stand does not matter to the rule that they spell. -/
theorem ofStream_of_shift {stream : TokenStream} {offset : Nat} {rule : Rule}
    (inner : ∀ token ∈ stream.tokens, token.isEnd = false)
    (h : Rule.ofStream (stream.shift offset) = .ok rule) : Rule.ofStream stream = .ok rule := by
  have inner' : ∀ token ∈ (stream.shift offset).tokens, token.isEnd = false := by
    intro token htoken
    obtain ⟨unmoved, hunmoved, rfl⟩ := List.mem_map.1 htoken
    exact inner unmoved hunmoved
  have alike : List.Forall₂ Token.Alike (stream.shift offset).tokens stream.tokens :=
    List.forall₂_map_left_iff.2 (List.forall₂_same.2 fun token _ => ⟨rfl, fun _ => rfl⟩)
  obtain ⟨position, hclose, reads⟩ := (ofStream_eq_ok_iff_reads inner').1 h
  obtain ⟨tokens, close⟩ := stream
  cases close with
  | failure error => cases hclose
  | endOfInput position' =>
    have alike' := List.rel_append alike (.cons (.endOfInput position position') .nil)
    exact (ofStream_eq_ok_iff_reads inner).2 ⟨position', rfl, reads.congr alike'⟩

/-- The source spells the rule from one of its `if` tokens on. -/
def EndsWithRule (source : String) (rule : Rule) : Prop :=
  ∃ tokens, tokenize source = .ok tokens ∧ ∃ token ∈ tokens, token.kind = .ifWord ∧
    Rule.parse (String.ofList (source.toList.drop token.position)) = .ok rule

/-- A rule behind some requests is the rule of the source from the token that comes next. -/
theorem endsWithRule_of_ofStream {source : String} {count : Nat} {rule : Rule}
    (h : Rule.ofStream ((Scanner.ofSource source).after count).stream = .ok rule) :
    EndsWithRule source rule := by
  have inner := Lexis.isEnd_of_mem_stream ((Scanner.ofSource source).after count)
  have stream : ((Scanner.ofSource source).after count).stream = (sourceStream source).drop count :=
    Scanner.stream_after _ count
  rw [stream] at h inner
  obtain ⟨position, hclose, -⟩ := (ofStream_eq_ok_iff_reads inner).1 h
  obtain rfl := Lexis.endOfInput_sourceStream hclose
  obtain ⟨token, back, hback, kind⟩ := exists_opening_of_ofStream inner h
  have split : (sourceStream source).tokens
      = (sourceStream source).tokens.take count ++ token :: back := by
    rw [← hback]
    exact (List.take_append_drop count _).symm
  have moved : Rule.ofStream ((sourceStream (String.ofList
      (source.toList.drop token.position))).shift token.position) = .ok rule := by
    rw [Lexis.sourceStream_drop split, ← hback]
    exact h
  have hmem : token ∈ (sourceStream source).tokens := by
    rw [split]
    exact List.mem_append_right _ List.mem_cons_self
  exact ⟨_, Lexis.tokenize_eq_ok_iff.2 ⟨_, congrArg (TokenStream.mk _) hclose, rfl⟩, token,
    List.mem_append_left _ hmem, kind,
    ofStream_of_shift (Lexis.isEnd_of_mem_sourceStream _) moved⟩

/-- A call that finds a rule leaves the parser at the end of the text. -/
theorem rule_of_standsBehind {source : String} {parser last : Parser} {rule : Rule}
    (stands : parser.StandsBehind (Scanner.ofSource source)) (h : parser.rule = .ok rule last) :
    last = .atEnd source.length ∧ EndsWithRule source rule := by
  obtain ⟨count, hcount⟩ := stands
  have suffix := endsWithRule_of_ofStream (ofStream_eq_ok_iff.2 ⟨parser, last, hcount, h⟩)
  have inner := Lexis.isEnd_of_mem_stream ((Scanner.ofSource source).after count)
  obtain ⟨position, hclose, -, hlast⟩ := (rule_of_stream_iff inner).1 ⟨parser, hcount, h⟩
  rw [Scanner.stream_after] at hclose
  obtain rfl := Lexis.endOfInput_sourceStream hclose
  exact ⟨hlast, suffix⟩

/-! ## Main statement -/

/-- At the end of the text there is no rule, and no call gets away from there. -/
theorem call_of_atEnd {parser : Parser} {position number : Nat}
    (h : parser.afterCalls number = .atEnd position) {later : Nat} (hlater : number ≤ later) :
    parser.call later = .error (.grammar .ifWord (.endOfInput position)) := by
  have stays : parser.afterCalls later = .atEnd position := by
    induction hlater with
    | refl => exact h
    | step _ ih => rw [Parser.afterCalls, ih]; rfl
  rw [Parser.call, stays]
  rfl

/--
**A parser used again.** Let a parser be made of a scanner that some tokens were taken from, and be
asked for a rule again and again. At most one call finds a rule. Every later call finds the end of
the text where the rule should start. The rule is the one that the source spells from one of its
`if` tokens on. A lexical error is one that the scanner reported, or says that a number is too
large; once a call gave an error of the scanner, no later call finds a rule.
-/
theorem calls_find_one_rule {source : String} {taken : Nat} {parser : Parser}
    (h : Parser.ofScanner ((Scanner.ofSource source).after taken) = .ok parser) :
    (∀ first second rule rule', parser.call first = .ok rule → parser.call second = .ok rule' →
      first = second) ∧
    (∀ number rule, parser.call number = .ok rule → ∀ later > number,
      parser.call later = .error (.grammar .ifWord (.endOfInput source.length))) ∧
    (∀ number rule, parser.call number = .ok rule → EndsWithRule source rule) ∧
    (∀ number error, parser.call number = .error (.lexical error) →
      ((∃ text, error.cause = .numberOutOfRange text) ∨
        ∃ request, (Scanner.ofSource source).answer request = .error error) ∧
      ((∃ request, (Scanner.ofSource source).answer request = .error error) →
        ∀ later > number, ∀ rule, parser.call later ≠ .ok rule)) := by
  have steps := Parser.stepwise_standsBehind (Scanner.ofSource source)
  have stands : parser.StandsBehind (Scanner.ofSource source) := ⟨taken, h⟩
  have found : ∀ {number rule}, parser.call number = .ok rule →
      parser.afterCalls (number + 1) = .atEnd source.length ∧ EndsWithRule source rule := by
    intro number rule hcall
    obtain ⟨last, hrule⟩ := Parser.call_eq_ok_iff.1 hcall
    obtain ⟨rfl, suffix⟩ := rule_of_standsBehind (steps.afterCalls stands number) hrule
    exact ⟨by rw [Parser.afterCalls, hrule]; rfl, suffix⟩
  have ended : ∀ {number rule}, parser.call number = .ok rule → ∀ later > number,
      parser.call later = .error (.grammar .ifWord (.endOfInput source.length)) :=
    fun hcall later hlater => call_of_atEnd (found hcall).1 hlater
  refine ⟨fun first second rule rule' hfirst hsecond => ?_, fun _ _ => ended,
    fun _ _ hcall => (found hcall).2, fun number error hcall => ⟨?_, ?_⟩⟩
  · rcases Nat.lt_trichotomy first second with lt | same | gt
    · rw [ended hfirst second lt] at hsecond
      cases hsecond
    · exact same
    · rw [ended hsecond first gt] at hfirst
      cases hfirst
  · cases steps.sort_of_call stands hcall with
    | scanned hanswer => exact .inr ⟨_, hanswer⟩
    | overflow text position => exact .inl ⟨text, rfl⟩
  · rintro ⟨request, hanswer⟩ later - rule hcall'
    obtain ⟨-, tokens, htokens, -⟩ := found hcall'
    rw [Lexis.answer_stream] at hanswer
    have failed : tokenize source = .error error :=
      Lexis.tokenize_eq_error_iff.2 (TokenStream.close_of_answer_error hanswer)
    rw [failed] at htokens
    cases htokens

/-- The first call stops at the second `if`, the next one finds the rule there, and then no more. -/
theorem calls_find_one_rule_second_if :
    let source := "x if if a > 1 then b = c"
    ∃ parser rule, Parser.ofScanner ((Scanner.ofSource source).after 1) = .ok parser ∧
      parser.call 0 = .error (.grammar .identifier ⟨.ifWord, "if", 5⟩) ∧
      parser.call 1 = .ok rule ∧ Rule.parse "if a > 1 then b = c" = .ok rule ∧
      ∀ later > 1, parser.call later = .error (.grammar .ifWord (.endOfInput 24)) := by
  intro source
  let parser : Parser := ⟨⟨.ifWord, "if", 2⟩, [⟨.ifWord, "if", 5⟩, ⟨.identifier, "a", 8⟩,
    ⟨.more, ">", 10⟩, ⟨.number, "1", 12⟩, ⟨.thenWord, "then", 14⟩, ⟨.identifier, "b", 19⟩,
    ⟨.assign, "=", 21⟩, ⟨.identifier, "c", 23⟩], .endOfInput 24⟩
  let rule : Rule :=
    ⟨[⟨"a", .more, .number (.ofBits 0x3ff0000000000000)⟩], "b", .text "c"⟩
  have made : Parser.ofScanner ((Scanner.ofSource source).after 1) = .ok parser := by
    decide +kernel
  have found : parser.call 1 = .ok rule := by decide +kernel
  have length : source.length = 24 := by decide +kernel
  obtain ⟨-, ended, -, -⟩ := calls_find_one_rule made
  exact ⟨parser, rule, made, by decide +kernel, found, by decide +kernel,
    length ▸ ended 1 rule found⟩

end Rulebook
