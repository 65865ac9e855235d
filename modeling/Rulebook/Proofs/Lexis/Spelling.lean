import Rulebook.Lexis.Lexeme

/-!
# Lexemes and their spellings

What a source is made of besides white space: words, numbers, symbolic operators and quoted texts.
Their spellings are described here by characters alone, without the automaton that reads them.

* `CharClass.of` gives a character the class that its description asks for (`of_eq_letter_iff` and
  its kin).
* The reader's tests on a finished lexeme agree with the descriptions: `isNumeral_iff` for numbers,
  `operatorKind?_eq_some_iff` for operators.
* `conclude_lexeme`: the state in which a lexeme ends makes the lexeme's token.
-/

namespace Rulebook.Lexis

/-! ## Characters by their codes -/

theorem isLetter_iff {c : Char} :
    isLetter c = true ↔
      (97 ≤ c.toNat ∧ c.toNat ≤ 122) ∨ (65 ≤ c.toNat ∧ c.toNat ≤ 90) ∨
      (0x430 ≤ c.toNat ∧ c.toNat ≤ 0x44F) ∨ (0x410 ≤ c.toNat ∧ c.toNat ≤ 0x42F) ∨
      c.toNat = 0x451 ∨ c.toNat = 0x401 ∨ c.toNat = 95 := by
  simp only [isLetter, Bool.or_eq_true, Bool.and_eq_true, decide_eq_true_eq, beq_iff_eq,
    Char.le_def, UInt32.le_iff_toNat_le, ← Char.toNat_inj, or_assoc]
  rfl

theorem isDigitOrPoint_iff {c : Char} :
    isDigitOrPoint c = true ↔ (48 ≤ c.toNat ∧ c.toNat ≤ 57) ∨ c.toNat = 46 := by
  simp only [isDigitOrPoint, Char.isDigit, Bool.or_eq_true, Bool.and_eq_true, decide_eq_true_eq,
    beq_iff_eq, ge_iff_le, UInt32.le_iff_toNat_le, ← Char.toNat_inj]
  rfl

theorem isOperatorChar_iff {c : Char} :
    isOperatorChar c = true ↔ c.toNat = 61 ∨ c.toNat = 62 ∨ c.toNat = 60 ∨ c.toNat = 33 := by
  simp only [isOperatorChar, Bool.or_eq_true, beq_iff_eq, ← Char.toNat_inj, or_assoc]
  rfl

theorem isBlank_iff {c : Char} :
    Text.isBlank c = true ↔
      (9 ≤ c.toNat ∧ c.toNat ≤ 13) ∨ c.toNat = 32 ∨ c.toNat = 0x85 ∨ c.toNat = 0xA0 ∨
      c.toNat = 0x1680 ∨ (0x2000 ≤ c.toNat ∧ c.toNat ≤ 0x200A) ∨
      (0x2028 ≤ c.toNat ∧ c.toNat ≤ 0x2029) ∨ c.toNat = 0x202F ∨ c.toNat = 0x205F ∨
      c.toNat = 0x3000 := by
  simp only [Text.isBlank, Text.CharRanges.has, Text.blankRanges, List.any_cons, List.any_nil,
    Bool.or_eq_true, Bool.and_eq_true, decide_eq_true_eq, Bool.or_false, Nat.le_antisymm_iff]
  omega

/-! ## Classes -/

/-- What the class of a character says about it. -/
theorem of_some_cases (c : Char) :
    (CharClass.of (some c) = .letter ∧ isLetter c = true) ∨
    (CharClass.of (some c) = .digit ∧ isDigitOrPoint c = true) ∨
    (CharClass.of (some c) = .operator ∧ isOperatorChar c = true) ∨
    (CharClass.of (some c) = .sign ∧ c = '-') ∨
    (CharClass.of (some c) = .quote ∧ c = '"') ∨
    (CharClass.of (some c) = .blank ∧ Text.isBlank c = true) ∨
    CharClass.of (some c) = .other := by
  unfold CharClass.of
  repeat' split
  all_goals simp_all

theorem of_eq_letter_iff {c : Char} : CharClass.of (some c) = .letter ↔ isLetter c = true := by
  constructor
  · intro h
    simpa [h] using of_some_cases c
  · intro h
    simp [CharClass.of, h]

theorem of_eq_digit_iff {c : Char} :
    CharClass.of (some c) = .digit ↔ isDigitOrPoint c = true := by
  constructor
  · intro h
    simpa [h] using of_some_cases c
  · intro h
    have code := isDigitOrPoint_iff.1 h
    have letter : ¬ isLetter c = true := by rw [isLetter_iff]; omega
    simp [CharClass.of, letter, h]

theorem of_eq_operator_iff {c : Char} :
    CharClass.of (some c) = .operator ↔ isOperatorChar c = true := by
  constructor
  · intro h
    simpa [h] using of_some_cases c
  · intro h
    have code := isOperatorChar_iff.1 h
    have letter : ¬ isLetter c = true := by rw [isLetter_iff]; omega
    have digit : ¬ isDigitOrPoint c = true := by rw [isDigitOrPoint_iff]; omega
    simp [CharClass.of, letter, digit, h]

theorem of_eq_sign_iff {c : Char} : CharClass.of (some c) = .sign ↔ c = '-' := by
  constructor
  · intro h
    simpa [h] using of_some_cases c
  · rintro rfl
    decide

theorem of_eq_quote_iff {c : Char} : CharClass.of (some c) = .quote ↔ c = '"' := by
  constructor
  · intro h
    simpa [h] using of_some_cases c
  · rintro rfl
    decide

theorem of_eq_blank_iff {c : Char} :
    CharClass.of (some c) = .blank ↔ Text.isBlank c = true := by
  constructor
  · intro h
    simpa [h] using of_some_cases c
  · intro h
    have code := isBlank_iff.1 h
    have letter : ¬ isLetter c = true := by rw [isLetter_iff]; omega
    have digit : ¬ isDigitOrPoint c = true := by rw [isDigitOrPoint_iff]; omega
    have operator : ¬ isOperatorChar c = true := by rw [isOperatorChar_iff]; omega
    have sign : c ≠ '-' := by rintro rfl; simp at code
    have quote : c ≠ '"' := by rintro rfl; simp at code
    simp [CharClass.of, letter, digit, operator, sign, quote, h]

/-! ## Shapes of spellings -/

/-- White space only. -/
def IsGap (text : List Char) : Prop :=
  ∀ c ∈ text, Text.isBlank c = true

/-- A letter, and then letters, digits and points. -/
def IsWord (text : List Char) : Prop :=
  ∃ first rest, text = first :: rest ∧ isLetter first = true ∧
    ∀ c ∈ rest, isLetter c = true ∨ isDigitOrPoint c = true

/-- ASCII digits, at least one. -/
def IsDigits (text : List Char) : Prop :=
  text ≠ [] ∧ ∀ c ∈ text, c.isDigit = true

/-- Digits, or digits around a point. -/
inductive IsUnsignedNumber : List Char → Prop
  | whole {digits : List Char} (h : IsDigits digits) : IsUnsignedNumber digits
  | point {digits fraction : List Char} (h : IsDigits digits) (h' : IsDigits fraction) :
      IsUnsignedNumber (digits ++ '.' :: fraction)

/-- An unsigned number with a minus sign before it or not. -/
inductive IsNumber : List Char → Prop
  | unsigned {text : List Char} (h : IsUnsignedNumber text) : IsNumber text
  | negative {text : List Char} (h : IsUnsignedNumber text) : IsNumber ('-' :: text)

/-- The symbolic operators with the kinds of their tokens. -/
def symbols : List (String × TokenKind) :=
  [("==", .equal), ("=", .assign), ("!=", .notEqual), ("<", .less), (">", .more),
   ("<=", .lessOrEqual), (">=", .moreOrEqual)]

/-! ## The tests on a finished number -/

theorem isDecimalDigit_iff {c : Char} (h : isDigitOrPoint c = true) :
    Text.isDecimalDigit c = true ↔ c.isDigit = true := by
  refine ⟨fun hd => ?_, Text.isDecimalDigit_of_isDigit⟩
  rcases Bool.or_eq_true_iff.1 h with hdigit | hpoint
  · exact hdigit
  · rw [beq_iff_eq.1 hpoint] at hd
    exact absurd hd (by decide)

theorem IsDigits.digitOrPoint {text : List Char} (h : IsDigits text) :
    ∀ c ∈ text, isDigitOrPoint c = true :=
  fun c hc => Bool.or_eq_true_iff.2 (Or.inl (h.2 c hc))

theorem IsUnsignedNumber.digitOrPoint {text : List Char} (h : IsUnsignedNumber text) :
    ∀ c ∈ text, isDigitOrPoint c = true := by
  intro c hc
  cases h with
  | whole h => exact h.digitOrPoint c hc
  | point h h' =>
    rcases List.mem_append.1 hc with hc | hc
    · exact h.digitOrPoint c hc
    · rcases List.mem_cons.1 hc with rfl | hc
      · decide
      · exact h'.digitOrPoint c hc

theorem IsUnsignedNumber.ne_nil {text : List Char} (h : IsUnsignedNumber text) : text ≠ [] := by
  cases h with
  | whole h => exact h.1
  | point h h' => simp

theorem isUnsignedNumeral_iff {text : List Char} (chars : ∀ c ∈ text, isDigitOrPoint c = true) :
    isUnsignedNumeral text = true ↔ IsUnsignedNumber text := by
  constructor
  · intro h
    have split := List.takeWhile_append_dropWhile (p := Text.isDecimalDigit) (l := text)
    have digits : ∀ c ∈ text.takeWhile Text.isDecimalDigit, c.isDigit = true := fun c hc =>
      (isDecimalDigit_iff (chars c (List.takeWhile_subset _ hc))).1
        (List.all_eq_true.1 List.all_takeWhile c hc)
    simp only [isUnsignedNumeral, Bool.and_eq_true, Bool.not_eq_true',
      List.isEmpty_eq_false_iff] at h
    obtain ⟨some_digits, after⟩ := h
    split at after
    · next stop =>
      rw [stop, List.append_nil] at split
      rw [← split]
      exact .whole ⟨some_digits, digits⟩
    · next fraction stop =>
      simp only [Bool.and_eq_true, Bool.not_eq_true', List.isEmpty_eq_false_iff,
        List.all_eq_true] at after
      rw [stop] at split
      rw [← split]
      refine .point ⟨some_digits, digits⟩ ⟨after.1, fun c hc => ?_⟩
      have mem : c ∈ text := by rw [← split]; simp [hc]
      exact (isDecimalDigit_iff (chars c mem)).1 (after.2 c hc)
    · exact absurd after (by simp)
  · intro h
    have decimal : ∀ {digits : List Char}, IsDigits digits →
        ∀ c ∈ digits, Text.isDecimalDigit c = true :=
      fun h c hc => Text.isDecimalDigit_of_isDigit (h.2 c hc)
    cases h with
    | whole h =>
      have taken : text.takeWhile Text.isDecimalDigit = text := by
        have := @List.takeWhile_append_of_pos _ Text.isDecimalDigit text [] (decimal h)
        rwa [List.append_nil, List.takeWhile_nil, List.append_nil] at this
      have dropped : text.dropWhile Text.isDecimalDigit = [] := by
        have := @List.dropWhile_append_of_pos _ Text.isDecimalDigit text [] (decimal h)
        rwa [List.append_nil] at this
      simp [isUnsignedNumeral, taken, dropped, h.1]
    | @point digits fraction h h' =>
      have point : Text.isDecimalDigit '.' = false := by decide
      have taken : (digits ++ '.' :: fraction).takeWhile Text.isDecimalDigit = digits := by
        rw [List.takeWhile_append_of_pos (decimal h), List.takeWhile_cons_of_neg (by simp [point]),
          List.append_nil]
      have dropped : (digits ++ '.' :: fraction).dropWhile Text.isDecimalDigit
          = '.' :: fraction := by
        rw [List.dropWhile_append_of_pos (decimal h), List.dropWhile_cons_of_neg (by simp [point])]
      simp only [isUnsignedNumeral, taken, dropped]
      simpa [h.1, h'.1] using decimal h'

/-- The characters of a number: a minus sign or a digit first, and then digits and points. -/
theorem IsNumber.chars {text : List Char} (h : IsNumber text) :
    ∃ first rest, text = first :: rest ∧ (first = '-' ∨ isDigitOrPoint first = true) ∧
      ∀ c ∈ rest, isDigitOrPoint c = true := by
  cases h with
  | negative h => exact ⟨_, _, rfl, Or.inl rfl, h.digitOrPoint⟩
  | unsigned h =>
    obtain ⟨first, rest, rfl⟩ := List.exists_cons_of_ne_nil h.ne_nil
    have all := h.digitOrPoint
    exact ⟨first, rest, rfl, Or.inr (all first List.mem_cons_self),
      fun c hc => all c (List.mem_cons_of_mem _ hc)⟩

theorem isNumeral_iff {first : Char} {rest : List Char}
    (hfirst : first = '-' ∨ isDigitOrPoint first = true)
    (hrest : ∀ c ∈ rest, isDigitOrPoint c = true) :
    isNumeral (String.ofList (first :: rest)) = true ↔ IsNumber (first :: rest) := by
  have sign : isDigitOrPoint '-' = false := by decide
  unfold isNumeral
  rw [String.toList_ofList]
  by_cases h : first = '-'
  · subst h
    simp only [isUnsignedNumeral_iff hrest]
    refine ⟨.negative, fun hnumber => ?_⟩
    cases hnumber with
    | negative h => exact h
    | unsigned h => simpa [sign] using h.digitOrPoint '-' List.mem_cons_self
  · have all : ∀ c ∈ first :: rest, isDigitOrPoint c = true :=
      List.forall_mem_cons.2 ⟨hfirst.resolve_left h, hrest⟩
    have other : ∀ unsigned, first :: rest ≠ '-' :: unsigned := by simp [h]
    split
    · next unsigned heq => exact absurd heq (other unsigned)
    · rw [isUnsignedNumeral_iff all]
      refine ⟨.unsigned, fun hnumber => ?_⟩
      generalize htext : first :: rest = text at hnumber
      cases hnumber with
      | unsigned h => exact h
      | @negative text h => exact absurd htext (other text)

/-! ## The lookup of operators and words -/

theorem mem_of_kind? {spellings : Spellings} {text : String} {kind : TokenKind}
    (h : spellings.kind? text = some kind) :
    ∃ group ∈ spellings, group.1 = kind ∧
      String.ofList (text.toList.map foldCase) ∈ group.2 := by
  unfold Spellings.kind? at h
  obtain ⟨group, hgroup, rfl⟩ := Option.map_eq_some_iff.1 h
  exact ⟨group, List.mem_of_find?_eq_some hgroup, rfl, by simpa using List.find?_some hgroup⟩

theorem foldCase_of_isOperatorChar {c : Char} (h : isOperatorChar c = true) : foldCase c = c := by
  simp only [isOperatorChar, Bool.or_eq_true, beq_iff_eq] at h
  rcases h with ((rfl | rfl) | rfl) | rfl <;> decide

/-- The spellings made of operator characters are the symbols. -/
theorem symbols_of_operators :
    ∀ group ∈ operators, ∀ spelling ∈ group.2,
      spelling.toList.all isOperatorChar = true → (spelling, group.1) ∈ symbols := by
  decide

theorem operatorChars_of_symbols :
    ∀ symbol ∈ symbols, symbol.1.toList ≠ [] ∧
      ∀ c ∈ symbol.1.toList, isOperatorChar c = true := by
  have chars : ∀ symbol ∈ symbols, symbol.1.toList ≠ [] ∧
      symbol.1.toList.all isOperatorChar = true := by
    decide
  intro symbol hsymbol
  obtain ⟨nonempty, all⟩ := chars symbol hsymbol
  exact ⟨nonempty, List.all_eq_true.1 all⟩

theorem operatorKind?_of_symbols :
    ∀ symbol ∈ symbols, operatorKind? symbol.1 = some symbol.2 := by
  decide

theorem operatorKind?_eq_some_iff {text : String} {kind : TokenKind}
    (chars : ∀ c ∈ text.toList, isOperatorChar c = true) :
    operatorKind? text = some kind ↔ (text, kind) ∈ symbols := by
  refine ⟨fun h => ?_, operatorKind?_of_symbols (text, kind)⟩
  obtain ⟨group, hgroup, rfl, hmem⟩ := mem_of_kind? h
  have folded : text.toList.map foldCase = text.toList := by
    rw [List.map_congr_left fun c hc => foldCase_of_isOperatorChar (chars c hc), List.map_id']
  rw [folded, String.ofList_toList] at hmem
  exact symbols_of_operators group hgroup text hmem (List.all_eq_true.2 chars)

/-- No operator or keyword denotes a quoted text or the end of the text. -/
theorem kinds_of_vocabulary :
    ∀ group ∈ operators ++ keywords, group.1 ≠ .text ∧ group.1 ≠ .endOfInput := by
  decide

theorem kinds_of_symbols : ∀ symbol ∈ symbols, symbol.2 ≠ .text ∧ symbol.2 ≠ .endOfInput := by
  decide

theorem wordKind_ne {text : String} (h : text.isEmpty = false) :
    wordKind text ≠ .text ∧ wordKind text ≠ .endOfInput := by
  unfold wordKind
  rw [h]
  by_cases numeral : isNumeral text = true
  · simp [numeral]
  · simp only [Bool.false_eq_true, ↓reduceIte, numeral]
    cases hkind : (operatorKind? text).or (keywordKind? text) with
    | none => simp
    | some kind =>
      rw [Option.getD_some]
      rcases Option.or_eq_some_iff.1 hkind with hkind | ⟨-, hkind⟩
      · obtain ⟨group, hgroup, rfl, -⟩ := mem_of_kind? hkind
        exact kinds_of_vocabulary group (List.mem_append_left _ hgroup)
      · obtain ⟨group, hgroup, rfl, -⟩ := mem_of_kind? hkind
        exact kinds_of_vocabulary group (List.mem_append_right _ hgroup)

/-! ## Lexemes -/

/-- A word of a source, with the reason why it is one. -/
inductive Lexeme where
  | word (text : List Char) (h : IsWord text)
  | number (text : List Char) (h : IsNumber text)
  | symbol (text : String) (kind : TokenKind) (h : (text, kind) ∈ symbols)
  /-- Any characters but quotes, between two quotes. -/
  | quoted (content : List Char) (h : '"' ∉ content)

namespace Lexeme

/-- The characters that the source spends on the lexeme. -/
def spelling : Lexeme → List Char
  | .word text _ | .number text _ => text
  | .symbol text _ _ => text.toList
  | .quoted content _ => '"' :: content ++ ['"']

/-- The characters that the token shows: the quotes are left out. -/
def content : Lexeme → List Char
  | .word text _ | .number text _ => text
  | .symbol text _ _ => text.toList
  | .quoted content _ => content

/-- The kind of the lexeme's token. -/
def kind : Lexeme → TokenKind
  | .word text _ => wordKind (String.ofList text)
  | .number _ _ => .number
  | .symbol _ kind _ => kind
  | .quoted _ _ => .text

/-- The token of the lexeme at a place of the source. -/
def token (lexeme : Lexeme) (position : Nat) : Token :=
  ⟨lexeme.kind, String.ofList lexeme.content, position⟩

/-- The lexeme is a symbolic operator. -/
def isSymbol : Lexeme → Bool
  | .symbol _ _ _ => true
  | .word _ _ | .number _ _ | .quoted _ _ => false

/-- The state of the automaton in which the lexeme ends. -/
def endState : Lexeme → State
  | .word _ _ => .word
  | .number _ _ => .number
  | .symbol _ _ _ => .operator
  | .quoted _ _ => .closed

/-- The state of the automaton behind the first character of the lexeme. -/
def openState : Lexeme → State
  | .word _ _ => .word
  | .number _ _ => .number
  | .symbol _ _ _ => .operator
  | .quoted _ _ => .quoted

theorem opens (lexeme : Lexeme) :
    ∃ c rest, lexeme.spelling = c :: rest ∧
      State.start.next (CharClass.of (some c)) = lexeme.openState := by
  cases lexeme with
  | word text h =>
    obtain ⟨first, rest, rfl, hfirst, -⟩ := h
    exact ⟨first, rest, rfl, by rw [of_eq_letter_iff.2 hfirst]; rfl⟩
  | number text h =>
    obtain ⟨first, rest, rfl, hfirst, -⟩ := h.chars
    refine ⟨first, rest, rfl, ?_⟩
    rcases hfirst with hfirst | hfirst
    · rw [of_eq_sign_iff.2 hfirst]; rfl
    · rw [of_eq_digit_iff.2 hfirst]; rfl
  | symbol text kind h =>
    obtain ⟨nonempty, chars⟩ := operatorChars_of_symbols (text, kind) h
    obtain ⟨first, rest, spelled⟩ := List.exists_cons_of_ne_nil nonempty
    have hfirst : isOperatorChar first = true := chars first (spelled ▸ List.mem_cons_self)
    exact ⟨first, rest, spelled, by rw [of_eq_operator_iff.2 hfirst]; rfl⟩
  | quoted content h => exact ⟨'"', content ++ ['"'], rfl, by rw [of_eq_quote_iff.2 rfl]; rfl⟩

theorem opens_of_spelling {lexeme : Lexeme} {c : Char} {rest : List Char}
    (h : lexeme.spelling = c :: rest) :
    State.start.next (CharClass.of (some c)) = lexeme.openState := by
  obtain ⟨d, tail, spelled, hopen⟩ := lexeme.opens
  rw [spelled, List.cons.injEq] at h
  rwa [← h.1]

/-- No lexeme starts with white space. -/
theorem not_blank_of_spelling {lexeme : Lexeme} {c : Char} {rest : List Char}
    (h : lexeme.spelling = c :: rest) : ¬ Text.isBlank c = true := by
  intro blank
  have hopen := opens_of_spelling h
  rw [of_eq_blank_iff.2 blank] at hopen
  cases lexeme <;> cases hopen

end Lexeme

theorem conclude_lexeme (lexeme : Lexeme) (position : Nat) :
    conclude lexeme.endState (String.ofList lexeme.content) position
      = .ok (lexeme.token position) := by
  cases lexeme with
  | word text h => rfl
  | number text h =>
    obtain ⟨first, rest, rfl, hfirst, hrest⟩ := h.chars
    have numeral := (isNumeral_iff hfirst hrest).2 h
    simp only [conclude, Lexeme.endState, Lexeme.token, Lexeme.content, Lexeme.kind, numeral,
      ↓reduceIte]
  | symbol text kind h =>
    have lookup := operatorKind?_of_symbols (text, kind) h
    simp [conclude, Lexeme.endState, Lexeme.token, Lexeme.content, Lexeme.kind, lookup]
  | quoted content h => rfl

end Rulebook.Lexis
