import Rulebook.Proofs.Lexis.Segmentation
import Rulebook.Proofs.Number.PlainText
import Rulebook.Proofs.Rule.Acceptance

/-!
# Rules and their texts

The canonical text of a rule is its lexemes with one space between them, so the segmentation of the
text is known, and its tokens read as the rule (`Rule.Printable.exists_segmentation`). Not every
rule has a text that reads back; those that have are the printable ones, and the parser returns no
others (`toText_reads_back`).
-/

namespace Rulebook

open Lexis (Token TokenKind Lexeme Piece Segmentation IsGap IsWord IsNumber wordKind tokenize)
open Number (Binary64 Numeral)

/-! ## Printable rules -/

/-- A word that is neither a keyword nor an operator. -/
structure IsName (name : String) : Prop where
  word : IsWord name.toList
  kind : wordKind name = .identifier

/-- A finite number, or a text that does not end its own quotes. -/
def Literal.Printable : Literal → Prop
  | .number x => x.isFinite = true
  | .text value => '"' ∉ value.toList

structure Comparison.Printable (comparison : Comparison) : Prop where
  left : IsName comparison.left
  right : comparison.right.Printable

structure Rule.Printable (rule : Rule) : Prop where
  nonempty : rule.condition ≠ []
  condition : ∀ comparison ∈ rule.condition, comparison.Printable
  target : IsName rule.target
  value : rule.value.Printable

/-! ## Lexemes with spaces -/

theorem isGap_space : IsGap [' '] :=
  List.forall_mem_singleton.2 (by decide)

/-- A lexeme with one space before it. -/
def spacedPiece (lexeme : Lexeme) : Piece :=
  ⟨[' '], isGap_space, lexeme⟩

def spaced (lexemes : List Lexeme) : List Piece :=
  lexemes.map spacedPiece

theorem chars_spaced (lexemes : List Lexeme) :
    (spaced lexemes).flatMap Piece.chars = lexemes.flatMap (' ' :: ·.spelling) := by
  rw [spaced, List.flatMap_map]
  rfl

theorem isChain_spaced (piece : Piece) (lexemes : List Lexeme) :
    (piece :: spaced lexemes).IsChain Piece.Separates := by
  induction lexemes generalizing piece with
  | nil => exact .singleton piece
  | cons lexeme lexemes ih => exact List.isChain_cons_cons.2 ⟨nofun, ih (spacedPiece lexeme)⟩

theorem tokensFrom_append (position : Nat) (front back : List Piece) :
    Piece.tokensFrom position (front ++ back)
      = Piece.tokensFrom position front
        ++ Piece.tokensFrom (position + (front.flatMap Piece.chars).length) back := by
  induction front generalizing position with
  | nil => rfl
  | cons piece front ih =>
    simp only [List.cons_append, Piece.tokensFrom, ih, List.flatMap_cons, List.length_append,
      Nat.add_assoc]

theorem tokensFrom_spaced_append (position : Nat) (front back : List Lexeme) :
    ∃ position', Piece.tokensFrom position (spaced (front ++ back))
      = Piece.tokensFrom position (spaced front) ++ Piece.tokensFrom position' (spaced back) := by
  rw [spaced, List.map_append, tokensFrom_append]
  exact ⟨_, rfl⟩

/-! ## The lexemes of a text -/

/-- The lexemes spell the text with a space before it. -/
def Spell (lexemes : List Lexeme) (text : String) : Prop :=
  lexemes.flatMap (' ' :: ·.spelling) = ' ' :: text.toList

theorem spell_singleton {lexeme : Lexeme} {text : String} (h : lexeme.spelling = text.toList) :
    Spell [lexeme] text := by
  rw [Spell, List.flatMap_singleton, h]

theorem Spell.append {front back : List Lexeme} {text text' : String} (h : Spell front text)
    (h' : Spell back text') : Spell (front ++ back) (text ++ " " ++ text') := by
  rw [Spell, List.flatMap_append, h, h']
  simp

def wordLexeme {name : String} (h : IsName name) : Lexeme :=
  .word name.toList h.word

theorem isWord_of_letters {text : List Char} (nonempty : text ≠ [])
    (letters : text.all Lexis.isLetter = true) : IsWord text := by
  obtain ⟨first, rest, rfl⟩ := List.exists_cons_of_ne_nil nonempty
  obtain ⟨hfirst, hrest⟩ := List.forall_mem_cons.1 (List.all_eq_true.1 letters)
  exact ⟨first, rest, rfl, hfirst, fun c hc => .inl (hrest c hc)⟩

def ifLexeme : Lexeme :=
  .word "if".toList (isWord_of_letters (by decide) (by decide))

def thenLexeme : Lexeme :=
  .word "then".toList (isWord_of_letters (by decide) (by decide))

def andLexeme : Lexeme :=
  .word "and".toList (isWord_of_letters (by decide) (by decide))

def assignLexeme : Lexeme :=
  .symbol "=" .assign (by decide)

theorem kinds_of_keywords :
    ifLexeme.kind = .ifWord ∧ thenLexeme.kind = .thenWord ∧ andLexeme.kind = .andWord := by
  decide

theorem IsName.kind_wordLexeme {name : String} (h : IsName name) :
    (wordLexeme h).kind = .identifier := by
  rw [wordLexeme, Lexeme.kind, String.ofList_toList, h.kind]

theorem IsName.text_wordLexeme {name : String} (h : IsName name) (position : Nat) :
    ((wordLexeme h).token position).text = name :=
  String.ofList_toList

theorem Relation.symbol_mem (relation : Relation) :
    (relation.symbol, relation.kind) ∈ Lexis.symbols := by
  cases relation <;> decide

def Relation.lexeme (relation : Relation) : Lexeme :=
  .symbol relation.symbol relation.kind relation.symbol_mem

theorem Literal.Printable.exists_lexeme {literal : Literal} (h : literal.Printable) :
    ∃ lexeme : Lexeme, lexeme.spelling = literal.toText.toList ∧
      ∀ position, ReadsLiteral (lexeme.token position) literal := by
  cases literal with
  | number x =>
    obtain ⟨isNumber, nearest⟩ := numberText_spec h
    refine ⟨.number _ isNumber, rfl, fun position => ?_⟩
    have value : numberOf ((Lexeme.number _ isNumber).token position) = x := by
      rw [numberOf, Lexeme.token, String.toList_ofList]
      exact nearest
    have finite : (numberOf ((Lexeme.number _ isNumber).token position)).isFinite = true := by
      rw [value]
      exact h
    have reads := ReadsLiteral.number rfl finite
    rwa [value] at reads
  | text value =>
    refine ⟨.quoted value.toList h, by simp [Lexeme.spelling, Literal.toText], fun position => ?_⟩
    have reads : ReadsLiteral ((Lexeme.quoted value.toList h).token position) _ :=
      ReadsLiteral.text rfl
    rwa [show ((Lexeme.quoted value.toList h).token position).text = value from
      String.ofList_toList] at reads

theorem Comparison.Printable.exists_lexemes {comparison : Comparison} (h : comparison.Printable) :
    ∃ lexemes, Spell lexemes comparison.toText ∧
      ∀ position, ReadsComparison (Piece.tokensFrom position (spaced lexemes)) comparison := by
  obtain ⟨left, relation, right⟩ := comparison
  obtain ⟨name, printable⟩ := h
  obtain ⟨lexeme, spelled, reads⟩ := printable.exists_lexeme
  refine ⟨[wordLexeme name, relation.lexeme, lexeme], ?_, fun position => ?_⟩
  · exact ((spell_singleton rfl).append (spell_singleton rfl)).append (spell_singleton spelled)
  · have phrase : ReadsComparison
        (Piece.tokensFrom position (spaced [wordLexeme name, relation.lexeme, lexeme]))
        ⟨((wordLexeme name).token (position + 1)).text, relation, right⟩ :=
      .mk name.kind_wordLexeme rfl (reads _)
    rwa [name.text_wordLexeme] at phrase

theorem append_and (text text' : String) :
    text ++ " and " ++ text' = text ++ " " ++ ("and" ++ " " ++ text') := by
  rw [show " and " = " " ++ "and" ++ " " from rfl]
  simp only [String.append_assoc]

theorem exists_lexemes_condition {condition : List Comparison} (nonempty : condition ≠ [])
    (h : ∀ comparison ∈ condition, comparison.Printable) :
    ∃ lexemes, Spell lexemes (" and ".intercalate (condition.map Comparison.toText)) ∧
      ∀ position, ReadsCondition (Piece.tokensFrom position (spaced lexemes)) condition := by
  induction condition with
  | nil => exact absurd rfl nonempty
  | cons comparison others ih =>
    obtain ⟨printable, h⟩ := List.forall_mem_cons.1 h
    obtain ⟨lexemes, spelled, reads⟩ := printable.exists_lexemes
    cases others with
    | nil => exact ⟨lexemes, by simpa using spelled, fun position => .last (reads position)⟩
    | cons next others =>
      obtain ⟨rest, spelled', reads'⟩ := ih (List.cons_ne_nil _ _) h
      have joint : Spell [andLexeme] "and" := spell_singleton rfl
      refine ⟨lexemes ++ andLexeme :: rest, ?_, fun position => ?_⟩
      · rw [List.map_cons, List.map_cons, String.intercalate_cons_cons, ← List.map_cons, append_and]
        exact spelled.append (joint.append spelled')
      · obtain ⟨position', hsplit⟩ :=
          tokensFrom_spaced_append position lexemes (andLexeme :: rest)
        rw [hsplit]
        exact .more (reads position) kinds_of_keywords.2.2 (reads' _)

/-! ## The text of a rule -/

theorem readsRule_of_lexemes {tokens : List Token} {condition : List Comparison} {target : String}
    {value : Literal} {lexeme : Lexeme} (reads : ReadsCondition tokens condition)
    (name : IsName target) (reads' : ∀ position, ReadsLiteral (lexeme.token position) value)
    (first place last : Nat) :
    ReadsRule
      (ifLexeme.token first :: (tokens ++ (Piece.tokensFrom place
        (spaced [thenLexeme, wordLexeme name, assignLexeme, lexeme]) ++ [.endOfInput last])))
      ⟨condition, target, value⟩ := by
  obtain ⟨opens, joins, -⟩ := kinds_of_keywords
  have text := name.text_wordLexeme (place + (spacedPiece thenLexeme).chars.length + 1)
  have phrase : ReadsRule
      (ifLexeme.token first :: (tokens ++ (Piece.tokensFrom place
        (spaced [thenLexeme, wordLexeme name, assignLexeme, lexeme]) ++ [.endOfInput last])))
      ⟨condition,
        ((wordLexeme name).token (place + (spacedPiece thenLexeme).chars.length + 1)).text,
        value⟩ :=
    ReadsRule.mk opens reads joins name.kind_wordLexeme rfl (reads' _) rfl
  rwa [text] at phrase

/-- The canonical text of a printable rule splits at its spaces, and its tokens read as the rule. -/
theorem Rule.Printable.exists_segmentation {rule : Rule} (h : rule.Printable) :
    ∃ segmentation : Segmentation, segmentation.chars = rule.toText.toList ∧
      ReadsRule segmentation.tokens rule := by
  obtain ⟨condition, target, value⟩ := rule
  obtain ⟨nonempty, printable, name, hvalue⟩ := h
  obtain ⟨lexemes, spelled, reads⟩ := exists_lexemes_condition nonempty printable
  obtain ⟨lexeme, spelled', reads'⟩ := hvalue.exists_lexeme
  let closing := [thenLexeme, wordLexeme name, assignLexeme, lexeme]
  let opening : Piece := ⟨[], List.forall_mem_nil _, ifLexeme⟩
  refine ⟨⟨opening :: spaced (lexemes ++ closing), [], List.forall_mem_nil _,
    isChain_spaced _ _⟩, ?_, ?_⟩
  · have tail : Spell closing ("then" ++ " " ++ target ++ " " ++ "=" ++ " " ++ value.toText) :=
      (((spell_singleton rfl).append (spell_singleton rfl)).append (spell_singleton rfl)).append
        (spell_singleton spelled')
    have whole := spelled.append tail
    rw [Spell, ← chars_spaced] at whole
    simp only [Segmentation.chars, List.flatMap_cons, whole, List.append_nil]
    simp [opening, Piece.chars, ifLexeme, Lexeme.spelling, Rule.toText]
  · obtain ⟨position, hsplit⟩ :=
      tokensFrom_spaced_append (0 + opening.chars.length) lexemes closing
    rw [Segmentation.tokens, Piece.tokensFrom, hsplit, List.cons_append, List.append_assoc]
    exact readsRule_of_lexemes (reads _) name reads' _ _ _

theorem parse_toText {rule : Rule} (h : rule.Printable) : Rule.parse rule.toText = .ok rule := by
  obtain ⟨segmentation, hchars, reads⟩ := h.exists_segmentation
  exact parse_eq_ok_iff.2 ⟨_, Lexis.tokenize_segmentation hchars, reads⟩

/-! ## From tokens to printable rules -/

/-- An identifier is a name, and a quoted text has no quotes inside. -/
structure Faithful (token : Token) : Prop where
  name : token.kind = .identifier → IsName token.text
  text : token.kind = .text → '"' ∉ token.text.toList

theorem kind_ne_identifier_of_symbols :
    ∀ symbol ∈ Lexis.symbols, symbol.2 ≠ .identifier := by
  decide

theorem faithful_lexeme (lexeme : Lexeme) (position : Nat) : Faithful (lexeme.token position) := by
  cases lexeme with
  | word text h =>
    obtain ⟨first, rest, rfl, -⟩ := id h
    refine ⟨fun kind => ⟨?_, kind⟩, fun kind => absurd kind (Lexis.wordKind_ne (by simp)).1⟩
    rw [Lexeme.token, String.toList_ofList]
    exact h
  | number text h =>
    constructor
    all_goals
      intro kind
      cases kind
  | symbol text kind h =>
    exact ⟨fun identifier => absurd identifier (kind_ne_identifier_of_symbols _ h),
      fun text => absurd text (Lexis.kinds_of_symbols _ h).1⟩
  | quoted content h =>
    constructor
    · intro kind
      cases kind
    · intro kind
      rw [Lexeme.token, String.toList_ofList]
      exact h

theorem faithful_of_mem_tokenize {source : String} {tokens : List Token}
    (h : tokenize source = .ok tokens) : ∀ token ∈ tokens, Faithful token := by
  obtain ⟨inner, hstream, rfl⟩ := Lexis.tokenize_eq_ok_iff.1 h
  refine List.forall_mem_append.2 ⟨fun token htoken => ?_, ?_⟩
  · have htoken' : token ∈ (Lexis.sourceStream source).tokens := by rwa [hstream]
    obtain ⟨lexeme, place, rfl⟩ :=
      Lexis.TokenStream.exists_lexeme_of_mem_ofText _ _ token htoken'
    exact faithful_lexeme lexeme place
  · exact List.forall_mem_singleton.2 ⟨nofun, nofun⟩

theorem IsName.not_mem_quote {name : String} (h : IsName name) : '"' ∉ name.toList := by
  obtain ⟨first, rest, spelled, hfirst, hrest⟩ := h.word
  rw [spelled]
  intro quote
  rcases List.mem_cons.1 quote with rfl | quote
  · exact absurd hfirst (by decide)
  · exact absurd (hrest _ quote) (by decide)

theorem ReadsLiteral.printable {token : Token} {literal : Literal} (h : ReadsLiteral token literal)
    (faithful : Faithful token) : literal.Printable := by
  cases h with
  | number kind finite => exact finite
  | identifier kind => exact (faithful.name kind).not_mem_quote
  | text kind => exact faithful.text kind

theorem ReadsComparison.printable {tokens : List Token} {comparison : Comparison}
    (h : ReadsComparison tokens comparison) (faithful : ∀ token ∈ tokens, Faithful token) :
    comparison.Printable := by
  obtain ⟨hleft, hop, hright⟩ := h
  simp only [List.forall_mem_cons] at faithful
  obtain ⟨left, -, right, -⟩ := faithful
  exact ⟨left.name hleft, hright.printable right⟩

theorem ReadsCondition.printable {tokens : List Token} {condition : List Comparison}
    (h : ReadsCondition tokens condition) (faithful : ∀ token ∈ tokens, Faithful token) :
    condition ≠ [] ∧ ∀ comparison ∈ condition, comparison.Printable := by
  induction h with
  | last h => exact ⟨List.cons_ne_nil _ _, List.forall_mem_singleton.2 (h.printable faithful)⟩
  | more h hjoint hrest ih =>
    obtain ⟨front, back⟩ := List.forall_mem_append.1 faithful
    obtain ⟨-, others⟩ := ih (List.forall_mem_cons.1 back).2
    exact ⟨List.cons_ne_nil _ _, List.forall_mem_cons.2 ⟨h.printable front, others⟩⟩

theorem ReadsRule.printable {tokens : List Token} {rule : Rule} (h : ReadsRule tokens rule)
    (faithful : ∀ token ∈ tokens, Faithful token) : rule.Printable := by
  obtain ⟨hopening, hcondition, hjoint, htarget, hassign, hvalue, hclose⟩ := h
  simp only [List.forall_mem_cons, List.forall_mem_append] at faithful
  obtain ⟨-, inner, -, target, -, value, -⟩ := faithful
  obtain ⟨nonempty, condition⟩ := hcondition.printable inner
  exact ⟨nonempty, condition, target.name htarget, hvalue.printable value⟩

theorem printable_of_parse {source : String} {rule : Rule} (h : Rule.parse source = .ok rule) :
    rule.Printable := by
  obtain ⟨tokens, htokens, reads⟩ := parse_eq_ok_iff.1 h
  exact reads.printable (faithful_of_mem_tokenize htokens)

/-! ## Main statement -/

/--
**Canonical texts.** A printable rule is what its text reads as. The printable rules are those that
some source reads as, so the text of every rule that was read reads as the same rule.
-/
theorem toText_reads_back :
    (∀ rule : Rule, rule.Printable → Rule.parse rule.toText = .ok rule) ∧
    (∀ rule : Rule, (∃ source, Rule.parse source = .ok rule) ↔ rule.Printable) ∧
    (∀ (source : String) (rule : Rule), Rule.parse source = .ok rule →
      Rule.parse rule.toText = .ok rule) := by
  refine ⟨fun rule => parse_toText, fun rule => ⟨?_, fun h => ⟨_, parse_toText h⟩⟩,
    fun source rule h => parse_toText (printable_of_parse h)⟩
  rintro ⟨source, h⟩
  exact printable_of_parse h

end Rulebook
