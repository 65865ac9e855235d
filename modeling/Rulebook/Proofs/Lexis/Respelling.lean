import Rulebook.Proofs.Lexis.Segmentation

/-!
# Respellings

A source can be written again with other spellings of its keywords and operators, in any letter
case, and with other white space. The new source has tokens that the grammar cannot tell from the
old ones (`tokenize_respelled`).
-/

namespace Rulebook.Lexis

/-! ## Writing a token -/

/-- The characters are a spelling of the kind, in any letter case. -/
def SpelledAs (kind : TokenKind) (chars : List Char) : Prop :=
  ∃ group ∈ operators ++ keywords, group.1 = kind ∧
    ∃ spelling ∈ group.2, chars.map foldCase = spelling.toList

instance (kind : TokenKind) (chars : List Char) : Decidable (SpelledAs kind chars) :=
  inferInstanceAs (Decidable (∃ group ∈ operators ++ keywords, group.1 = kind ∧
    ∃ spelling ∈ group.2, chars.map foldCase = spelling.toList))

/-- The ways to write a token again. -/
inductive Writes (token : Token) : List Char → Prop
  | name (h : token.kind = .identifier) : Writes token token.text.toList
  | number (h : token.kind = .number) : Writes token token.text.toList
  | quoted (h : token.kind = .text) : Writes token ('"' :: token.text.toList ++ ['"'])
  /-- A keyword or an operator, by any of its spellings. -/
  | spelled {chars : List Char} (h : SpelledAs token.kind chars) : Writes token chars

/-- The tokens written one after the other, with white space between them and behind the last. -/
inductive WritesAll : List Token → List Char → Prop
  | nil {gap : List Char} (h : IsGap gap) : WritesAll [] gap
  | last {token : Token} {chars gap : List Char} (hwrites : Writes token chars) (hgap : IsGap gap) :
      WritesAll [token] (chars ++ gap)
  | more {token next : Token} {tokens : List Token} {chars gap rest : List Char}
      (hwrites : Writes token chars) (hgap : IsGap gap) (apart : gap ≠ [])
      (hrest : WritesAll (next :: tokens) rest) :
      WritesAll (token :: next :: tokens) (chars ++ (gap ++ rest))

/-- A text that writes the tokens again, perhaps with white space before the first one. -/
def IsRespelling (tokens : List Token) (text : List Char) : Prop :=
  ∃ gap rest, IsGap gap ∧ WritesAll tokens rest ∧ text = gap ++ rest

/--
Two tokens mean the same: they have the same kind, and the same text where the text means anything.
-/
structure Token.Alike (first second : Token) : Prop where
  kind : first.kind = second.kind
  text : first.kind = .identifier ∨ first.kind = .number ∨ first.kind = .text →
    first.text = second.text

theorem Token.Alike.endOfInput (position position' : Nat) :
    (Token.endOfInput position).Alike (.endOfInput position') :=
  ⟨rfl, fun _ => rfl⟩

/-! ## Spellings in any letter case -/

/-- Folding makes letters out of letters, and keeps everything else. -/
theorem foldCase_cases (c : Char) :
    foldCase c = c ∨ (isLetter c = true ∧ isLetter (foldCase c) = true) := by
  have code {n : Nat} (h : n < 0xD800) : (Char.ofNat n).toNat = n := by
    rw [Char.ofNat, dif_pos (.inl h)]
    rfl
  unfold foldCase
  split
  · next latin =>
    simp only [Bool.and_eq_true, decide_eq_true_eq, Char.le_def, UInt32.le_iff_toNat_le] at latin
    have low : 65 ≤ c.toNat := latin.1
    have high : c.toNat ≤ 90 := latin.2
    rw [isLetter_iff, isLetter_iff, code (by omega)]
    omega
  · split
    · next russian =>
      simp only [Bool.and_eq_true, decide_eq_true_eq, Char.le_def,
        UInt32.le_iff_toNat_le] at russian
      have low : 0x410 ≤ c.toNat := russian.1
      have high : c.toNat ≤ 0x42F := russian.2
      rw [isLetter_iff, isLetter_iff, code (by omega)]
      omega
    · split
      · next yo =>
        rw [beq_iff_eq.1 yo]
        decide
      · exact .inl rfl

theorem isLetter_of_foldCase {c : Char} (h : isLetter (foldCase c) = true) : isLetter c = true := by
  rcases foldCase_cases c with same | ⟨letter, -⟩
  · rwa [same] at h
  · exact letter

/-- Folding makes no operator character out of another character. -/
theorem foldCase_eq_of_isOperatorChar {c : Char} (h : isOperatorChar (foldCase c) = true) :
    foldCase c = c := by
  rcases foldCase_cases c with same | ⟨-, letter⟩
  · exact same
  · rw [isOperatorChar_iff] at h
    rw [isLetter_iff] at letter
    omega

/-- Every spelling is a symbol, or a word of letters. -/
theorem spellings_of_vocabulary :
    ∀ group ∈ operators ++ keywords, ∀ spelling ∈ group.2,
      (spelling, group.1) ∈ symbols ∨
        (spelling.toList ≠ [] ∧ spelling.toList.all isLetter = true) := by
  decide

/-- The lookup finds the kind of every spelling, which is in lower case. -/
theorem kind?_of_vocabulary :
    ∀ group ∈ operators ++ keywords, ∀ spelling ∈ group.2,
      spelling.toList.map foldCase = spelling.toList ∧
        (operatorKind? spelling).or (keywordKind? spelling) = some group.1 := by
  decide

/-- No spelling stands for a token whose text means anything. -/
theorem kind_of_vocabulary :
    ∀ group ∈ operators ++ keywords,
      ¬ (group.1 = .identifier ∨ group.1 = .number ∨ group.1 = .text) := by
  decide

/-- The lookup sees the lower case only. -/
theorem Spellings.kind?_congr (spellings : Spellings) {text text' : String}
    (h : text.toList.map foldCase = text'.toList.map foldCase) :
    spellings.kind? text = spellings.kind? text' := by
  rw [Spellings.kind?, Spellings.kind?, h]

theorem isDecimalDigit_of_isLetter {c : Char} (h : isLetter c = true) :
    Text.isDecimalDigit c = false := by
  have zeros : ∀ first ∈ Text.digitZeros, first = 0x30 ∨ 0x660 ≤ first := by decide
  rw [isLetter_iff] at h
  rw [Text.isDecimalDigit, List.any_eq_false]
  intro first hfirst digit
  simp only [Bool.and_eq_true, decide_eq_true_eq] at digit
  have := zeros first hfirst
  omega

/-- A word is no number. -/
theorem isNumeral_of_isWord {text : List Char} (h : IsWord text) :
    isNumeral (String.ofList text) = false := by
  obtain ⟨first, rest, rfl, hfirst, -⟩ := h
  have digit := isDecimalDigit_of_isLetter hfirst
  have sign : first ≠ '-' := by
    rintro rfl
    exact absurd hfirst (by decide)
  rw [isNumeral, String.toList_ofList]
  split
  · next unsigned heq => exact absurd (List.cons.inj heq).1 sign
  · simp [isUnsignedNumeral, digit]

theorem wordKind_of_isWord {text : List Char} (h : IsWord text) :
    wordKind (String.ofList text)
      = ((operatorKind? (String.ofList text)).or
          (keywordKind? (String.ofList text))).getD .identifier := by
  obtain ⟨first, rest, rfl, -⟩ := id h
  rw [wordKind, isNumeral_of_isWord h]
  simp

/-- A spelling in any letter case is one lexeme of its kind. -/
theorem SpelledAs.exists_lexeme {kind : TokenKind} {chars : List Char} (h : SpelledAs kind chars) :
    ∃ lexeme : Lexeme, lexeme.spelling = chars ∧ lexeme.kind = kind := by
  obtain ⟨group, hgroup, rfl, spelling, hspelling, folded⟩ := h
  obtain ⟨lower, lookup⟩ := kind?_of_vocabulary group hgroup spelling hspelling
  rcases spellings_of_vocabulary group hgroup spelling hspelling with symbol | ⟨nonempty, letters⟩
  · have same : chars = spelling.toList := by
      rw [← folded, List.map_congr_left fun c hc => ?_, List.map_id']
      apply foldCase_eq_of_isOperatorChar
      refine (operatorChars_of_symbols _ symbol).2 _ ?_
      rw [← folded]
      exact List.mem_map_of_mem hc
    exact ⟨.symbol spelling group.1 symbol, same.symm, rfl⟩
  · have letters' : ∀ c ∈ chars, isLetter c = true := by
      intro c hc
      apply isLetter_of_foldCase
      refine List.all_eq_true.1 letters _ ?_
      rw [← folded]
      exact List.mem_map_of_mem hc
    have word : IsWord chars := by
      cases chars with
      | nil => exact absurd folded.symm nonempty
      | cons first rest =>
        obtain ⟨hfirst, hrest⟩ := List.forall_mem_cons.1 letters'
        exact ⟨first, rest, rfl, hfirst, fun c hc => .inl (hrest c hc)⟩
    have folded' : (String.ofList chars).toList.map foldCase = spelling.toList.map foldCase := by
      rw [String.toList_ofList, folded, lower]
    refine ⟨.word chars word, rfl, ?_⟩
    rw [Lexeme.kind, wordKind_of_isWord word, operatorKind?, keywordKind?,
      Spellings.kind?_congr _ folded', Spellings.kind?_congr _ folded', ← operatorKind?,
      ← keywordKind?, lookup]
    rfl

/-! ## Lexemes of a respelling -/

/-- Only quoted texts show less than they are spelled with. -/
theorem Lexeme.spelling_eq_content {lexeme : Lexeme} (h : lexeme.kind ≠ .text) :
    lexeme.spelling = lexeme.content := by
  cases lexeme with
  | quoted content h' => exact absurd rfl h
  | _ => rfl

theorem Lexeme.spelling_of_text {lexeme : Lexeme} (h : lexeme.kind = .text) :
    lexeme.spelling = '"' :: lexeme.content ++ ['"'] := by
  cases lexeme with
  | word text h' =>
    obtain ⟨first, rest, rfl, -⟩ := id h'
    exact absurd h (wordKind_ne (by simp)).1
  | number text h' => cases h
  | symbol text kind h' => exact absurd h (kinds_of_symbols _ h').1
  | quoted content h' => rfl

/-- However a lexeme's token is written, the characters are a lexeme with such a token. -/
theorem Writes.exists_lexeme {lexeme : Lexeme} {position : Nat} {chars : List Char}
    (h : Writes (lexeme.token position) chars) :
    ∃ lexeme' : Lexeme, lexeme'.spelling = chars ∧
      ∀ position', (lexeme.token position).Alike (lexeme'.token position') := by
  have alike : ∀ position', (lexeme.token position).Alike (lexeme.token position') :=
    fun position' => ⟨rfl, fun _ => rfl⟩
  cases h with
  | name h =>
    have kind : lexeme.kind ≠ .text := by
      intro text
      cases text.symm.trans h
    exact ⟨lexeme, by rw [Lexeme.token, String.toList_ofList, lexeme.spelling_eq_content kind],
      alike⟩
  | number h =>
    have kind : lexeme.kind ≠ .text := by
      intro text
      cases text.symm.trans h
    exact ⟨lexeme, by rw [Lexeme.token, String.toList_ofList, lexeme.spelling_eq_content kind],
      alike⟩
  | quoted h =>
    exact ⟨lexeme, by rw [Lexeme.token, String.toList_ofList, Lexeme.spelling_of_text h], alike⟩
  | spelled h =>
    obtain ⟨lexeme', spelled, kind⟩ := h.exists_lexeme
    obtain ⟨group, hgroup, hkind, -⟩ := h
    refine ⟨lexeme', spelled, fun position' => ⟨kind.symm, fun named => ?_⟩⟩
    exact absurd (hkind ▸ named) (kind_of_vocabulary group hgroup)

/-! ## The tokens of a respelling -/

/--
A text that writes tokens again splits into lexemes with such tokens. The white space before the
first lexeme is the white space before the text, and where there is some, the text can follow any
other lexeme.
-/
theorem WritesAll.exists_pieces {tokens : List Token} {text : List Char}
    (h : WritesAll tokens text)
    (lexemes : ∀ token ∈ tokens, ∃ (lexeme : Lexeme) (position : Nat),
      token = lexeme.token position) :
    ∀ {gap : List Char}, IsGap gap →
      ∃ (pieces : List Piece) (trailing : List Char), IsGap trailing ∧
        pieces.flatMap Piece.chars ++ trailing = gap ++ text ∧
        pieces.IsChain Piece.Separates ∧
        (gap ≠ [] → ∀ before, (before :: pieces).IsChain Piece.Separates) ∧
        ∀ position, List.Forall₂ Token.Alike tokens (Piece.tokensFrom position pieces) := by
  induction h with
  | @nil trailing h =>
    intro gap hgap
    exact ⟨[], gap ++ trailing, List.forall_mem_append.2 ⟨hgap, h⟩, rfl, .nil,
      fun _ before => .singleton before, fun _ => .nil⟩
  | @last token chars trailing hwrites htrailing =>
    intro gap hgap
    obtain ⟨lexeme, place, rfl⟩ := lexemes token List.mem_cons_self
    obtain ⟨lexeme', rfl, alike⟩ := hwrites.exists_lexeme
    refine ⟨[⟨gap, hgap, lexeme'⟩], trailing, htrailing, by simp [Piece.chars], .singleton _,
      fun apart before => ?_, fun position => .cons (alike _) .nil⟩
    exact List.isChain_pair.2 fun empty => absurd empty apart
  | @more token next tokens chars gap' rest hwrites hgap' apart hrest ih =>
    intro gap hgap
    obtain ⟨lexeme, place, rfl⟩ := lexemes token List.mem_cons_self
    obtain ⟨lexeme', rfl, alike⟩ := hwrites.exists_lexeme
    obtain ⟨pieces, trailing, htrailing, hchars, -, chain, alikes⟩ :=
      ih (fun token htoken => lexemes token (List.mem_cons_of_mem _ htoken)) hgap'
    have separated := chain apart ⟨gap, hgap, lexeme'⟩
    refine ⟨⟨gap, hgap, lexeme'⟩ :: pieces, trailing, htrailing, ?_, separated,
      fun apart before => ?_, fun position => .cons (alike _) (alikes _)⟩
    · rw [List.flatMap_cons, List.append_assoc, hchars, Piece.chars, List.append_assoc]
    · exact List.isChain_cons_cons.2 ⟨fun empty => absurd empty apart, separated⟩

/-- A respelling of the tokens of a source has such tokens itself. -/
theorem tokenize_respelled {source source' : String} {tokens : List Token} {close : Token}
    (h : tokenize source = .ok (tokens ++ [close]))
    (respelled : IsRespelling tokens source'.toList) :
    ∃ tokens', tokenize source' = .ok (tokens' ++ [.endOfInput source'.length]) ∧
      List.Forall₂ Token.Alike tokens tokens' := by
  obtain ⟨inner, hstream, heq⟩ := tokenize_eq_ok_iff.1 h
  obtain ⟨rfl, -⟩ := List.append_inj' heq rfl
  have lexemes : ∀ token ∈ tokens, ∃ (lexeme : Lexeme) (position : Nat),
      token = lexeme.token position := by
    have all := TokenStream.exists_lexeme_of_mem_ofText source.toList 0
    rwa [← sourceStream, hstream] at all
  obtain ⟨gap, rest, hgap, writes, hsource⟩ := respelled
  obtain ⟨pieces, trailing, htrailing, hchars, separated, -, alike⟩ :=
    writes.exists_pieces lexemes hgap
  have split : (⟨pieces, trailing, htrailing, separated⟩ : Segmentation).chars = source'.toList :=
    hchars.trans hsource.symm
  refine ⟨Piece.tokensFrom 0 pieces, ?_, alike 0⟩
  rw [tokenize_segmentation split, Segmentation.tokens, split, String.length_toList]

end Rulebook.Lexis
