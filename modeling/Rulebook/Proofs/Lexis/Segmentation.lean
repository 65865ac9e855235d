import Mathlib.Data.List.Chain
import Rulebook.Proofs.Lexis.Stream

/-!
# Segmentations

A source splits into lexemes with white space around them. Two lexemes may stand next to each other
when exactly one of them is a symbolic operator; otherwise white space keeps them apart. A source
has tokens if and only if it splits in this way; it splits in one way only, and the tokens are those
of its lexemes (`tokens_iff_segmentation`).

A segmentation carries the proofs of its own well-formedness, so the main statement has no side
conditions.
-/

namespace Rulebook.Lexis

/-- A lexeme with the white space before it. -/
structure Piece where
  gap : List Char
  isGap : IsGap gap
  lexeme : Lexeme

namespace Piece

def chars (piece : Piece) : List Char :=
  piece.gap ++ piece.lexeme.spelling

/-- Without white space between them, exactly one of two neighbours is an operator. -/
def Separates (first second : Piece) : Prop :=
  second.gap = [] → first.lexeme.isSymbol ≠ second.lexeme.isSymbol

/-- The tokens of pieces of which the first starts at `position`. -/
def tokensFrom (position : Nat) : List Piece → List Token
  | [] => []
  | piece :: rest =>
    piece.lexeme.token (position + piece.gap.length)
      :: tokensFrom (position + piece.chars.length) rest

end Piece

/-- A way to split a source: lexemes with white space before each of them and behind the last. -/
structure Segmentation where
  pieces : List Piece
  trailing : List Char
  trailing_isGap : IsGap trailing
  separated : pieces.IsChain Piece.Separates

namespace Segmentation

/-- The source that is split. -/
def chars (segmentation : Segmentation) : List Char :=
  segmentation.pieces.flatMap Piece.chars ++ segmentation.trailing

/-- The tokens of the lexemes, and the end token behind the last character. -/
def tokens (segmentation : Segmentation) : List Token :=
  Piece.tokensFrom 0 segmentation.pieces ++ [.endOfInput segmentation.chars.length]

end Segmentation

open TokenStream (ofText push)

/-! ## From a segmentation to its tokens -/

/-- A piece may end where the next one starts, or where the white space behind all of them does. -/
theorem endsBefore_rest {piece : Piece} {rest : List Piece} {trailing : List Char}
    (separated : (piece :: rest).IsChain Piece.Separates) (hgap : IsGap trailing) :
    piece.lexeme.EndsBefore (rest.flatMap Piece.chars ++ trailing) := by
  have before_gap : ∀ {gap : List Char}, IsGap gap → gap ≠ [] → ∀ after,
      piece.lexeme.EndsBefore (gap ++ after) := by
    intro gap hgap nonempty after
    obtain ⟨c, gap, rfl⟩ := List.exists_cons_of_ne_nil nonempty
    exact piece.lexeme.endsBefore_blank (hgap c List.mem_cons_self) (gap ++ after)
  cases rest with
  | nil =>
    rw [List.flatMap_nil, List.nil_append]
    cases trailing with
    | nil => exact piece.lexeme.endsBefore_nil
    | cons c trailing => exact piece.lexeme.endsBefore_blank (hgap c List.mem_cons_self) trailing
  | cons next rest =>
    rw [List.flatMap_cons, Piece.chars, List.append_assoc, List.append_assoc]
    by_cases empty : next.gap = []
    · rw [empty, List.nil_append, Lexeme.endsBefore_spelling]
      exact (List.isChain_cons_cons.1 separated).1 empty
    · exact before_gap next.isGap empty _

theorem ofText_pieces {pieces : List Piece} {trailing : List Char}
    (separated : pieces.IsChain Piece.Separates) (hgap : IsGap trailing) (position : Nat) :
    ofText (pieces.flatMap Piece.chars ++ trailing) position
      = ⟨Piece.tokensFrom position pieces,
          .endOfInput (position + (pieces.flatMap Piece.chars ++ trailing).length)⟩ := by
  induction pieces generalizing position with
  | nil =>
    have := TokenStream.ofText_gap hgap [] position
    rw [List.append_nil, TokenStream.ofText_nil] at this
    exact this
  | cons piece rest ih =>
    have ends := endsBefore_rest separated hgap
    have length : piece.chars.length = piece.gap.length + piece.lexeme.spelling.length := by
      rw [Piece.chars, List.length_append]
    rw [List.flatMap_cons, Piece.chars, List.append_assoc, List.append_assoc,
      TokenStream.ofText_gap piece.isGap, TokenStream.ofText_lexeme ends, ih separated.of_cons]
    simp only [push, Piece.tokensFrom, List.length_append, length, Nat.add_assoc]

/-! ## From tokens to a segmentation -/

theorem exists_segmentation (text : List Char) (position : Nat) :
    ∀ {last : Nat}, (ofText text position).close = .endOfInput last →
      ∃ segmentation : Segmentation, segmentation.chars = text := by
  induction text, position using TokenStream.ofText_induction with
  | gap text position hgap =>
    intro last _
    exact ⟨⟨[], text, hgap, .nil⟩, rfl⟩
  | failure text position error h =>
    intro last hclose
    cases hclose
  | lexeme gap lexeme after position hgap ends ih =>
    intro last hclose
    obtain ⟨⟨pieces, trailing, hgap', separated⟩, rfl⟩ := ih hclose
    have separated' : (Piece.mk gap hgap lexeme :: pieces).IsChain Piece.Separates := by
      cases pieces with
      | nil => exact .singleton _
      | cons next pieces =>
        refine List.isChain_cons_cons.2 ⟨fun empty => ?_, separated⟩
        rw [Segmentation.chars, List.flatMap_cons, Piece.chars, empty, List.nil_append,
          List.append_assoc, Lexeme.endsBefore_spelling] at ends
        exact ends
    exact ⟨⟨⟨gap, hgap, lexeme⟩ :: pieces, trailing, hgap', separated'⟩,
      by simp [Segmentation.chars, Piece.chars]⟩

/-! ## Only one segmentation -/

theorem gap_append_inj {gap gap' tail tail' : List Char} (hgap : IsGap gap) (hgap' : IsGap gap')
    (stop : ∀ c, tail.head? = some c → ¬ Text.isBlank c = true)
    (stop' : ∀ c, tail'.head? = some c → ¬ Text.isBlank c = true)
    (h : gap ++ tail = gap' ++ tail') : gap = gap' ∧ tail = tail' := by
  induction gap generalizing gap' with
  | nil =>
    cases gap' with
    | nil => exact ⟨rfl, h⟩
    | cons c gap' =>
      rw [List.nil_append] at h
      exact absurd (hgap' c List.mem_cons_self) (stop c (by rw [h]; rfl))
  | cons c gap ih =>
    cases gap' with
    | nil =>
      rw [List.nil_append] at h
      exact absurd (hgap c List.mem_cons_self) (stop' c (by rw [← h]; rfl))
    | cons d gap' =>
      rw [List.cons_append, List.cons_append, List.cons.injEq] at h
      obtain ⟨rfl, rfl⟩ := ih (fun x hx => hgap x (List.mem_cons_of_mem _ hx))
        (fun x hx => hgap' x (List.mem_cons_of_mem _ hx)) h.2
      exact ⟨by rw [h.1], rfl⟩

theorem not_blank_head {lexeme : Lexeme} {after : List Char} :
    ∀ c, (lexeme.spelling ++ after).head? = some c → ¬ Text.isBlank c = true := by
  intro c hc
  obtain ⟨d, rest, spelled, -⟩ := lexeme.opens
  rw [spelled, List.cons_append, List.head?_cons, Option.some.injEq] at hc
  exact Lexeme.not_blank_of_spelling (hc ▸ spelled)

theorem Lexeme.eq_of_token {lexeme lexeme' : Lexeme} {position : Nat}
    (hopen : lexeme.openState = lexeme'.openState)
    (h : lexeme.token position = lexeme'.token position) : lexeme = lexeme' := by
  simp only [token, Token.mk.injEq, String.ofList_inj, and_true] at h
  obtain ⟨hkind, hcontent⟩ := h
  cases lexeme <;> cases lexeme' <;> cases hopen <;> simp only [content, kind] at hcontent hkind
  · subst hcontent; rfl
  · subst hcontent; rfl
  · obtain rfl := String.toList_inj.1 hcontent; subst hkind; rfl
  · subst hcontent; rfl

/-- At one place of a text stands one lexeme. -/
theorem lexeme_append_inj {lexeme lexeme' : Lexeme} {after after' : List Char}
    (ends : lexeme.EndsBefore after) (ends' : lexeme'.EndsBefore after')
    (h : lexeme.spelling ++ after = lexeme'.spelling ++ after') :
    lexeme = lexeme' ∧ after = after' := by
  have token : lexeme.token 0 = lexeme'.token 0 := by
    have reads : readToken (lexeme.spelling ++ after) 0 = _ := readToken_lexeme ends
    rw [h, readToken_lexeme ends', Except.ok.injEq] at reads
    have tokens := congrArg ReadToken.token reads
    rwa [ReadToken.before_token, ReadToken.before_token, eq_comm] at tokens
  have hopen : lexeme.openState = lexeme'.openState := by
    obtain ⟨c, rest, spelled, opens⟩ := lexeme.opens
    obtain ⟨d, rest', spelled', opens'⟩ := lexeme'.opens
    rw [spelled, spelled', List.cons_append, List.cons_append, List.cons.injEq] at h
    rw [← opens, ← opens', h.1]
  obtain rfl := Lexeme.eq_of_token hopen token
  exact ⟨rfl, List.append_cancel_left h⟩

theorem pieces_inj {pieces pieces' : List Piece} {trailing trailing' : List Char}
    (separated : pieces.IsChain Piece.Separates) (separated' : pieces'.IsChain Piece.Separates)
    (hgap : IsGap trailing) (hgap' : IsGap trailing')
    (h : pieces.flatMap Piece.chars ++ trailing = pieces'.flatMap Piece.chars ++ trailing') :
    pieces = pieces' ∧ trailing = trailing' := by
  have no_piece : ∀ {gap : List Char} {piece : Piece} {rest : List Char}, IsGap gap →
      gap ≠ piece.chars ++ rest := by
    intro gap piece rest hgap heq
    obtain ⟨c, tail, spelled, -⟩ := piece.lexeme.opens
    refine Lexeme.not_blank_of_spelling spelled (hgap c ?_)
    rw [heq, Piece.chars, spelled]
    simp
  -- Piece by piece: the white space has to agree first, then the lexeme behind it.
  induction pieces generalizing pieces' with
  | nil =>
    cases pieces' with
    | nil => exact ⟨rfl, h⟩
    | cons piece' rest' =>
      rw [List.flatMap_cons, List.append_assoc] at h
      exact absurd h (no_piece hgap)
  | cons piece rest ih =>
    cases pieces' with
    | nil =>
      rw [List.flatMap_cons, List.append_assoc] at h
      exact absurd h.symm (no_piece hgap')
    | cons piece' rest' =>
      have ends := endsBefore_rest separated hgap
      have ends' := endsBefore_rest separated' hgap'
      obtain ⟨gap, isGap, lexeme⟩ := piece
      obtain ⟨gap', isGap', lexeme'⟩ := piece'
      simp only [List.flatMap_cons, Piece.chars, List.append_assoc] at h
      obtain ⟨rfl, htail⟩ := gap_append_inj isGap isGap' not_blank_head not_blank_head h
      obtain ⟨rfl, hrest⟩ := lexeme_append_inj ends ends' htail
      obtain ⟨rfl, rfl⟩ := ih separated.of_cons separated'.of_cons hrest
      exact ⟨rfl, rfl⟩

/-! ## Main statement -/

theorem Segmentation.eq_of_chars {first second : Segmentation}
    (h : first.chars = second.chars) : first = second := by
  obtain ⟨pieces, trailing, hgap, separated⟩ := first
  obtain ⟨pieces', trailing', hgap', separated'⟩ := second
  obtain ⟨rfl, rfl⟩ := pieces_inj separated separated' hgap hgap' h
  rfl

theorem tokenize_segmentation {source : String} {segmentation : Segmentation}
    (h : segmentation.chars = source.toList) : tokenize source = .ok segmentation.tokens := by
  have stream : sourceStream source
      = ⟨Piece.tokensFrom 0 segmentation.pieces, .endOfInput segmentation.chars.length⟩ := by
    rw [sourceStream, ← h, Segmentation.chars,
      ofText_pieces segmentation.separated segmentation.trailing_isGap, Nat.zero_add]
  have length : segmentation.chars.length = source.length := by rw [h, String.length_toList]
  rw [tokenize_eq_ok_iff, Segmentation.tokens, ← length]
  exact ⟨_, stream, rfl⟩

/--
**The lexical language.** A source has tokens exactly when it has a segmentation. It has no other
one, and the tokens are those of its lexemes, each at the place of its first character.
-/
theorem tokens_iff_segmentation (source : String) :
    ((∃ tokens, tokenize source = .ok tokens) ↔
      ∃ segmentation : Segmentation, segmentation.chars = source.toList) ∧
    (∀ first second : Segmentation, first.chars = source.toList →
      second.chars = source.toList → first = second) ∧
    (∀ segmentation : Segmentation, segmentation.chars = source.toList →
      tokenize source = .ok segmentation.tokens) := by
  refine ⟨⟨?_, ?_⟩, ?_, fun segmentation h => tokenize_segmentation h⟩
  · rintro ⟨tokens, h⟩
    obtain ⟨inner, hstream, -⟩ := tokenize_eq_ok_iff.1 h
    exact exists_segmentation _ _ (congrArg TokenStream.close hstream)
  · rintro ⟨segmentation, h⟩
    exact ⟨_, tokenize_segmentation h⟩
  · intro first second hfirst hsecond
    exact Segmentation.eq_of_chars (hfirst.trans hsecond.symm)

end Rulebook.Lexis
