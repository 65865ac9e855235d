import Rulebook.Json.Reader
import Rulebook.Json.Record
import Rulebook.Json.Writer
import Rulebook.Proofs.Number.Layout

/-!
# Written values are read back

A JSON value that the writer can write is the value of its text (`read?_toText`). Each part of a
value is read back with any text behind it, so the parts compose.
-/

namespace Rulebook.Json

open Number (Numeral)
open Lexis (IsDigits)

/-! ## Values that can be written -/

/-- The offset of a half fits in the halves that there are. -/
def Piece.IsWritable : Piece → Prop
  | .char _ => True
  | .high offset | .low offset => offset < halves

mutual

/-- Numerals are tidy, and halves of pairs are halves. -/
def Value.IsWritable : Value → Prop
  | .null | .bool _ => True
  | .number numeral => numeral.IsTidy
  | .string pieces => ∀ piece ∈ pieces, piece.IsWritable
  | .array items => itemsWritable items
  | .object members => membersWritable members

def itemsWritable : List Value → Prop
  | [] => True
  | item :: items => item.IsWritable ∧ itemsWritable items

def membersWritable : List (List Piece × Value) → Prop
  | [] => True
  | (key, value) :: members =>
    (∀ piece ∈ key, piece.IsWritable) ∧ value.IsWritable ∧ membersWritable members

end

theorem itemsWritable_iff {items : List Value} :
    itemsWritable items ↔ ∀ item ∈ items, item.IsWritable := by
  induction items with
  | nil => exact ⟨fun _ _ => nofun, fun _ => trivial⟩
  | cons item items ih => rw [itemsWritable, ih, List.forall_mem_cons]

theorem membersWritable_iff {members : List (List Piece × Value)} :
    membersWritable members ↔
      ∀ member ∈ members, (∀ piece ∈ member.1, piece.IsWritable) ∧ member.2.IsWritable := by
  induction members with
  | nil => exact ⟨fun _ _ => nofun, fun _ => trivial⟩
  | cons member members ih => rw [membersWritable, ih, List.forall_mem_cons, and_assoc]

theorem isWritable_piecesOf (text : String) : ∀ piece ∈ piecesOf text, piece.IsWritable := by
  intro piece hpiece
  obtain ⟨c, -, rfl⟩ := List.mem_map.1 hpiece
  trivial

theorem Value.isWritable_ofText (text : String) : (Value.ofText text).IsWritable :=
  isWritable_piecesOf text

theorem Value.isWritable_array {items : List Value} (h : ∀ item ∈ items, item.IsWritable) :
    (Value.array items).IsWritable :=
  itemsWritable_iff.2 h

theorem Value.isWritable_map {α : Type} {write : α → Value} (h : ∀ item, (write item).IsWritable)
    (items : List α) : (Value.array (items.map write)).IsWritable := by
  apply isWritable_array
  intro value hvalue
  obtain ⟨item, -, rfl⟩ := List.mem_map.1 hvalue
  exact h item

theorem Value.isWritable_ofFields {fields : List (String × Value)}
    (h : ∀ field ∈ fields, field.2.IsWritable) : (Value.ofFields fields).IsWritable := by
  refine membersWritable_iff.2 fun member hmember => ?_
  obtain ⟨field, hfield, rfl⟩ := List.mem_map.1 hmember
  exact ⟨isWritable_piecesOf field.1, h field hfield⟩

theorem isWritable_ofNumber (x : Number.Binary64) : (ofNumber x).IsWritable := by
  rw [ofNumber]
  split
  · exact Number.tidy_numeral numberLayout x
  · trivial

/-! ## Strings -/

theorem hexDigit?_digitChar : ∀ digit < 16, hexDigit? (Nat.digitChar digit) = some digit := by
  decide

theorem hexCode?_hexChars {code : Nat} (h : code < 0x10000) :
    ∃ a b c d, hexChars code = [a, b, c, d] ∧ hexCode? a b c d = some code := by
  refine ⟨_, _, _, _, rfl, ?_⟩
  simp only [hexCode?, hexDigit?_digitChar _ (Nat.mod_lt _ (by decide : 0 < 16))]
  change some (((code / 4096 % 16 * 16 + code / 256 % 16) * 16 + code / 16 % 16) * 16 + code % 16)
    = some code
  congr 1
  omega

theorem readPieces_codeChars {code : Nat} (h : code < 0x10000) (text : List Char) :
    readPieces (codeChars code ++ text)
      = (readPieces text).map fun read => (.ofCode code :: read.1, read.2) := by
  obtain ⟨a, b, c, d, hchars, hcode⟩ := hexCode?_hexChars h
  rw [codeChars, hchars]
  simp only [List.cons_append, List.nil_append, readPieces, hcode]
  cases readPieces text <;> rfl

/-! Codes tell apart the halves that open a pair, those that close one, and the characters. -/

theorem ofCode_high {offset : Nat} (h : offset < halves) :
    Piece.ofCode (highStart + offset) = .high offset := by
  have offset_lt : offset < 0x400 := h
  have high : highStart = 0xD800 := rfl
  have low : lowStart = 0xDC00 := rfl
  rw [Piece.ofCode, if_pos, Nat.add_sub_cancel_left]
  simp only [Bool.and_eq_true, decide_eq_true_eq]
  omega

theorem ofCode_low {offset : Nat} (h : offset < halves) :
    Piece.ofCode (lowStart + offset) = .low offset := by
  have offset_lt : offset < 0x400 := h
  have low : lowStart = 0xDC00 := rfl
  have low_end : lowEnd = 0xE000 := rfl
  rw [Piece.ofCode, if_neg, if_pos, Nat.add_sub_cancel_left]
  · simp only [Bool.and_eq_true, decide_eq_true_eq]
    omega
  · simp only [Bool.and_eq_true, decide_eq_true_eq]
    omega

theorem ofCode_toNat {c : Char} (h : c < ' ') : Piece.ofCode c.toNat = .char c := by
  have below : c.toNat < 0x20 := h
  have high : highStart = 0xD800 := rfl
  have low : lowStart = 0xDC00 := rfl
  rw [Piece.ofCode, if_neg, if_neg, Char.ofNat_toNat]
  · simp only [Bool.and_eq_true, decide_eq_true_eq]
    omega
  · simp only [Bool.and_eq_true, decide_eq_true_eq]
    omega

/-- A letter after a backslash. -/
theorem readPieces_escape {letter c : Char} (h : escaped? letter = some c) (text : List Char) :
    readPieces ('\\' :: letter :: text)
      = (readPieces text).map fun read => (.char c :: read.1, read.2) := by
  have hex : letter ≠ 'u' := by
    rintro rfl
    cases h
  rw [readPieces, h]
  · cases readPieces text <;> rfl
  · exact fun _ _ _ _ _ opening => absurd opening hex

/-- A character that stands for itself. -/
theorem readPieces_plain {c : Char} (quote : c ≠ '"') (backslash : c ≠ '\\') (plain : ¬ c < ' ')
    (text : List Char) :
    readPieces (c :: text) = (readPieces text).map fun read => (.char c :: read.1, read.2) := by
  have kept : ¬(c < firstPlainChar || c == '\\') = true := by
    simp only [Bool.or_eq_true, decide_eq_true_eq, beq_iff_eq]
    exact not_or.2 ⟨plain, backslash⟩
  rw [readPieces, if_neg kept]
  · cases readPieces text <;> rfl
  · exact quote
  · exact fun _ _ _ _ _ opening => absurd opening backslash
  · exact fun _ _ opening => absurd opening backslash

theorem readPieces_charChars (c : Char) (text : List Char) :
    readPieces (charChars c ++ text)
      = (readPieces text).map fun read => (.char c :: read.1, read.2) := by
  by_cases quote : c = '"'
  · subst quote
    exact readPieces_escape rfl text
  by_cases backslash : c = '\\'
  · subst backslash
    exact readPieces_escape rfl text
  rw [charChars, if_neg quote, if_neg backslash]
  split
  · next h => exact h ▸ readPieces_escape rfl text
  split
  · next h => exact h ▸ readPieces_escape rfl text
  split
  · next h => exact h ▸ readPieces_escape rfl text
  split
  · next h => exact h ▸ readPieces_escape rfl text
  split
  · next h => exact h ▸ readPieces_escape rfl text
  split
  · next control =>
    have below : c.toNat < 0x20 := control
    rw [readPieces_codeChars (by omega), ofCode_toNat control]
  · next plain => exact readPieces_plain quote backslash plain text

/-- A piece is read back, whatever follows it. -/
theorem readPieces_piece {piece : Piece} (h : piece.IsWritable) (text : List Char) :
    readPieces (piece.toChars ++ text)
      = (readPieces text).map fun read => (piece :: read.1, read.2) := by
  have halves_eq : halves = 0x400 := rfl
  cases piece with
  | char c => exact readPieces_charChars c text
  | high offset =>
    have offset_lt : offset < halves := h
    have high : highStart = 0xD800 := rfl
    rw [Piece.toChars, readPieces_codeChars (by omega), ofCode_high offset_lt]
  | low offset =>
    have offset_lt : offset < halves := h
    have low : lowStart = 0xDC00 := rfl
    rw [Piece.toChars, readPieces_codeChars (by omega), ofCode_low offset_lt]

/-- The pieces of a string are read back up to its closing quote. -/
theorem readPieces_flatMap {pieces : List Piece} (h : ∀ piece ∈ pieces, piece.IsWritable)
    (rest : List Char) :
    readPieces (pieces.flatMap Piece.toChars ++ '"' :: rest) = some (pieces, rest) := by
  induction pieces with
  | nil => simp only [List.flatMap_nil, List.nil_append, readPieces]
  | cons piece pieces ih =>
    obtain ⟨hpiece, hpieces⟩ := List.forall_mem_cons.1 h
    rw [List.flatMap_cons, List.append_assoc, readPieces_piece hpiece, ih hpieces]
    rfl

theorem stringChars_append (pieces : List Piece) (rest : List Char) :
    stringChars pieces ++ rest = '"' :: (pieces.flatMap Piece.toChars ++ '"' :: rest) := by
  simp [stringChars]

/-! ## Numbers -/

theorem readDigits_append {digits rest : List Char} (h : IsDigits digits)
    (stop : ∀ c ∈ rest.head?, c.isDigit = false) :
    readDigits (digits ++ rest) = some (digits, rest) := by
  have taken : rest.takeWhile Char.isDigit = [] := by
    cases rest with
    | nil => rfl
    | cons c rest => exact List.takeWhile_cons_of_neg (by simp [stop c rfl])
  have dropped : rest.dropWhile Char.isDigit = rest := by
    cases rest with
    | nil => rfl
    | cons c rest => exact List.dropWhile_cons_of_neg (by simp [stop c rfl])
  have nonempty : digits.isEmpty = false := List.isEmpty_eq_false_iff.2 h.1
  rw [readDigits, List.takeWhile_append_of_pos h.2, List.dropWhile_append_of_pos h.2, taken,
    dropped, List.append_nil]
  simp only [nonempty, Bool.false_eq_true, if_false]

theorem isDigits_toDigits (n : Nat) : IsDigits (Nat.toDigits 10 n) :=
  ⟨Nat.toDigits_ne_nil, Number.isDigit_toDigits n⟩

/-- The text ends here, or goes on as it does after a value in a larger one. -/
def Closes (rest : List Char) : Prop :=
  ∀ c ∈ rest.head?, c = ',' ∨ c = ']' ∨ c = '\x7d'

theorem Closes.not_digit {rest : List Char} (h : Closes rest) :
    ∀ c ∈ rest.head?, c.isDigit = false := by
  intro c hc
  rcases h c hc with rfl | rfl | rfl <;> decide

theorem readExponentDigits_toDigits (exponent : Nat) {rest : List Char} (h : Closes rest) :
    readExponentDigits (Nat.toDigits 10 exponent ++ rest) = some (exponent, rest) := by
  rw [readExponentDigits, readDigits_append (isDigits_toDigits exponent) h.not_digit]
  simp only [Option.bind_eq_bind, Option.bind_some, Nat.ofDigitChars_ten_toDigits]
  rfl

theorem readExponent_append (exponent : Option Int) {rest : List Char} (h : Closes rest) :
    readExponent ((exponent.map Numeral.exponentChars).getD [] ++ rest)
      = some (exponent, rest) := by
  cases exponent with
  | none =>
    rw [Option.map_none, Option.getD_none, List.nil_append]
    cases rest with
    | nil => rfl
    | cons c rest => rcases h c rfl with rfl | rfl | rfl <;> rfl
  | some exponent =>
    rw [Option.map_some, Option.getD_some]
    cases exponent with
    | ofNat exponent =>
      simp only [Numeral.exponentChars, List.cons_append, readExponent, readSignedExponent,
        readExponentDigits_toDigits exponent h, Option.map_some, Int.ofNat_eq_natCast]
    | negSucc exponent =>
      simp only [Numeral.exponentChars, List.cons_append, readExponent, readSignedExponent,
        readExponentDigits_toDigits (exponent + 1) h, Option.map_some]
      rfl

theorem head?_exponent (exponent : Option Int) {rest : List Char} (h : Closes rest) :
    ∀ c ∈ ((exponent.map Numeral.exponentChars).getD [] ++ rest).head?,
      c.isDigit = false ∧ c ≠ '.' := by
  intro c hc
  rcases exponent with _ | exponent | exponent
  · rcases h c hc with rfl | rfl | rfl <;> decide
  · obtain rfl : 'e' = c := Option.some.inj hc
    decide
  · obtain rfl : 'e' = c := Option.some.inj hc
    decide

theorem readFraction_append {fraction tail : List Char}
    (h : ∀ c ∈ fraction, c.isDigit = true)
    (stop : ∀ c ∈ tail.head?, c.isDigit = false ∧ c ≠ '.') :
    readFraction ((if fraction.isEmpty then [] else '.' :: fraction) ++ tail)
      = some (fraction, tail) := by
  cases fraction with
  | nil =>
    rw [List.isEmpty_nil, if_pos rfl, List.nil_append]
    cases tail with
    | nil => rfl
    | cons c tail =>
      rw [readFraction]
      intro rest opening
      exact (stop c rfl).2 (List.cons.inj opening).1
  | cons c fraction =>
    rw [List.isEmpty_cons, if_neg Bool.false_ne_true, List.cons_append, readFraction]
    exact readDigits_append ⟨List.cons_ne_nil _ _, h⟩ fun c hc => (stop c hc).1

theorem readWhole_append {whole tail : List Char} (h : IsDigits whole)
    (leading : whole.head? = some '0' → whole.length = 1)
    (stop : ∀ c ∈ tail.head?, c.isDigit = false) :
    readWhole (whole ++ tail) = some (whole, tail) := by
  have kept : ¬(whole.head? == some '0' && whole.length != 1) = true := by
    simp only [Bool.and_eq_true, beq_iff_eq, bne_iff_ne, not_and,
      Decidable.not_not]
    exact leading
  rw [readWhole, readDigits_append h stop]
  exact if_neg kept

/-- **A tidy numeral is read back.** -/
theorem readNumeral_toChars {n : Numeral} (h : n.IsTidy) {rest : List Char} (closes : Closes rest) :
    readNumeral (n.toChars ++ rest) = some (n, rest) := by
  obtain ⟨negative, whole, fraction, exponent⟩ := n
  have exponent_head := head?_exponent exponent closes
  have fraction_head : ∀ c ∈ ((if fraction.isEmpty then [] else '.' :: fraction)
      ++ ((exponent.map Numeral.exponentChars).getD [] ++ rest)).head?, c.isDigit = false := by
    cases fraction with
    | nil => exact fun c hc => (exponent_head c hc).1
    | cons d fraction =>
      intro c hc
      obtain rfl : '.' = c := Option.some.inj hc
      decide
  have unsigned : readUnsigned negative (whole ++
      ((if fraction.isEmpty then [] else '.' :: fraction)
        ++ ((exponent.map Numeral.exponentChars).getD [] ++ rest)))
      = some (⟨negative, whole, fraction, exponent⟩, rest) := by
    rw [readUnsigned, readWhole_append h.whole h.leading fraction_head]
    simp only [Option.bind_eq_bind, Option.bind_some,
      readFraction_append h.fraction exponent_head, readExponent_append exponent closes]
    rfl
  simp only [Numeral.toChars, List.append_assoc]
  cases negative with
  | true => exact unsigned
  | false =>
    obtain ⟨nonempty, digits⟩ := h.whole
    cases whole with
    | nil => exact absurd rfl nonempty
    | cons c whole =>
      rw [if_neg Bool.false_ne_true, List.nil_append, List.cons_append, readNumeral]
      · exact unsigned
      · intro tail opening
        exact Number.ne_of_isDigit (digits c List.mem_cons_self) rfl (List.cons.inj opening).1

/-! ## Values -/

/-- Numerals open with a minus sign or a digit. -/
def OpensNumeral (c : Char) : Prop :=
  c = '-' ∨ c.isDigit = true

theorem OpensNumeral.ne {c c' : Char} (h : OpensNumeral c) (minus : '-' ≠ c')
    (digit : c'.isDigit = false) : c ≠ c' := by
  rcases h with rfl | h
  · exact minus
  · exact Number.ne_of_isDigit h digit

theorem exists_toChars_numeral {n : Numeral} (h : n.IsTidy) :
    ∃ c tail, n.toChars = c :: tail ∧ OpensNumeral c := by
  obtain ⟨negative, whole, fraction, exponent⟩ := n
  cases negative with
  | true => exact ⟨'-', _, rfl, .inl rfl⟩
  | false =>
    obtain ⟨nonempty, digits⟩ := h.whole
    cases whole with
    | nil => exact absurd rfl nonempty
    | cons c whole => exact ⟨c, _, rfl, .inr (digits c (List.mem_cons_self ..))⟩

/-- A written value opens with no blank, and not as the end of an array does. -/
theorem exists_toChars_value {value : Value} (h : value.IsWritable) :
    ∃ c tail, value.toChars = c :: tail ∧ isJsonBlank c = false ∧ c ≠ ']' := by
  cases value with
  | null => exact ⟨'n', _, rfl, by decide, by decide⟩
  | bool value =>
    cases value with
    | true => exact ⟨'t', _, rfl, by decide, by decide⟩
    | false => exact ⟨'f', _, rfl, by decide, by decide⟩
  | number numeral =>
    obtain ⟨c, tail, htext, hc⟩ := exists_toChars_numeral h
    refine ⟨c, tail, htext, ?_, hc.ne (by decide) rfl⟩
    simp only [isJsonBlank, Bool.or_eq_false_iff, beq_eq_false_iff_ne]
    refine ⟨⟨⟨?_, ?_⟩, ?_⟩, ?_⟩ <;> exact hc.ne (by decide) rfl
  | string pieces => exact ⟨'"', _, rfl, by decide, by decide⟩
  | array items =>
    cases items with
    | nil => exact ⟨'[', _, rfl, by decide, by decide⟩
    | cons item items => exact ⟨'[', _, rfl, by decide, by decide⟩
  | object members =>
    cases members with
    | nil => exact ⟨'\x7b', _, rfl, by decide, by decide⟩
    | cons member members => exact ⟨'\x7b', _, rfl, by decide, by decide⟩

theorem skipBlanks_cons {c : Char} (h : isJsonBlank c = false) (text : List Char) :
    skipBlanks (c :: text) = c :: text :=
  List.dropWhile_cons_of_neg (by simp [h])

theorem skipBlanks_toChars {value : Value} (h : value.IsWritable) (text : List Char) :
    skipBlanks (value.toChars ++ text) = value.toChars ++ text := by
  obtain ⟨c, tail, hchars, blank, -⟩ := exists_toChars_value h
  rw [hchars, List.cons_append, skipBlanks_cons blank]

theorem closes_itemsChars (items : List Value) (rest : List Char) :
    Closes (itemsChars items ++ rest) := by
  intro c hc
  cases items with
  | nil => exact .inr (.inl (Option.some.inj hc).symm)
  | cons item items => exact .inl (Option.some.inj hc).symm

theorem closes_membersChars (members : List (List Piece × Value)) (rest : List Char) :
    Closes (membersChars members ++ rest) := by
  intro c hc
  cases members with
  | nil => exact .inr (.inr (Option.some.inj hc).symm)
  | cons member members => exact .inl (Option.some.inj hc).symm

theorem readValue_numeral {n : Numeral} (h : n.IsTidy) (bound : Nat) {rest : List Char}
    (closes : Closes rest) :
    readValue (bound + 1) (n.toChars ++ rest) = some (.number n, rest) := by
  have writable : (Value.number n).IsWritable := h
  have written : skipBlanks (n.toChars ++ rest) = n.toChars ++ rest :=
    skipBlanks_toChars writable rest
  have numeral := readNumeral_toChars h closes
  obtain ⟨c, tail, hchars, hc⟩ := exists_toChars_numeral h
  rw [hchars, List.cons_append] at written numeral ⊢
  rw [readValue, written]
  split
  · next opening => exact absurd (List.cons.inj opening).1 (hc.ne (by decide) rfl)
  · next opening => exact absurd (List.cons.inj opening).1 (hc.ne (by decide) rfl)
  · next opening => exact absurd (List.cons.inj opening).1 (hc.ne (by decide) rfl)
  · next opening => exact absurd (List.cons.inj opening).1 (hc.ne (by decide) rfl)
  · next opening => exact absurd (List.cons.inj opening).1 (hc.ne (by decide) rfl)
  · next opening => exact absurd (List.cons.inj opening).1 (hc.ne (by decide) rfl)
  · rw [numeral]
    rfl

theorem readValue_string {pieces : List Piece} (h : ∀ piece ∈ pieces, piece.IsWritable)
    (bound : Nat) (rest : List Char) :
    readValue (bound + 1) (stringChars pieces ++ rest) = some (.string pieces, rest) := by
  rw [stringChars_append, readValue, skipBlanks_cons rfl]
  simp only [readPieces_flatMap h, Option.bind_eq_bind, Option.bind_some]
  rfl

theorem readValue_emptyArray (bound : Nat) (rest : List Char) :
    readValue (bound + 1) ('[' :: ']' :: rest) = some (.array [], rest) := by
  have closing : skipBlanks (']' :: rest) = ']' :: rest := skipBlanks_cons rfl rest
  rw [readValue, skipBlanks_cons rfl]
  simp only [closing]

theorem readValue_emptyObject (bound : Nat) (rest : List Char) :
    readValue (bound + 1) ('\x7b' :: '\x7d' :: rest) = some (.object [], rest) := by
  have closing : skipBlanks ('\x7d' :: rest) = '\x7d' :: rest := skipBlanks_cons rfl rest
  rw [readValue, skipBlanks_cons rfl]
  simp only [closing]

/-- The items are read after the bracket that opens the array. -/
theorem readValue_array {bound : Nat} {text rest : List Char} {items : List Value}
    (opening : ∃ c tail, text = c :: tail ∧ isJsonBlank c = false ∧ c ≠ ']')
    (h : readItems bound text = some (items, rest)) :
    readValue (bound + 1) ('[' :: text) = some (.array items, rest) := by
  obtain ⟨c, tail, rfl, blank, other⟩ := opening
  rw [readValue, skipBlanks_cons rfl]
  simp only [skipBlanks_cons blank]
  split
  · next closing => exact absurd (List.cons.inj closing).1 other
  · rw [h]
    rfl

/-- The members are read after the bracket that opens the object. -/
theorem readValue_object {bound : Nat} {key : List Piece} {text rest : List Char}
    {members : List (List Piece × Value)}
    (h : readMembers bound (stringChars key ++ text) = some (members, rest)) :
    readValue (bound + 1) ('\x7b' :: (stringChars key ++ text)) = some (.object members, rest) := by
  rw [stringChars_append] at h ⊢
  have quote : isJsonBlank '"' = false := by decide
  rw [readValue, skipBlanks_cons rfl]
  simp only [skipBlanks_cons quote]
  split
  · next closing => exact absurd (List.cons.inj closing).1 (by decide)
  · rw [h]
    rfl

mutual

/-- **A written value is read back**, whatever follows it in a larger value. -/
theorem readValue_toChars (value : Value) (h : value.IsWritable) {bound : Nat}
    (enough : 2 * value.toChars.length ≤ bound) {rest : List Char} (closes : Closes rest) :
    readValue bound (value.toChars ++ rest) = some (value, rest) := by
  -- Each bracket and each item takes one call and at least one character, so a bound of two calls
  -- for a character is enough at every depth.
  obtain ⟨c, tail, hchars, -⟩ := exists_toChars_value h
  have room : 2 ≤ bound := by
    rw [hchars, List.length_cons] at enough
    omega
  obtain ⟨bound, rfl⟩ : ∃ fewer, bound = fewer + 1 := ⟨bound - 1, by omega⟩
  match value with
  | .number n => exact readValue_numeral h bound closes
  | .null =>
    rw [readValue, skipBlanks_toChars h]
    rfl
  | .bool true =>
    rw [readValue, skipBlanks_toChars h]
    rfl
  | .bool false =>
    rw [readValue, skipBlanks_toChars h]
    rfl
  | .string pieces => exact readValue_string h bound rest
  | .array [] => exact readValue_emptyArray bound rest
  | .array (item :: items) =>
    obtain ⟨hitem, hitems⟩ := h
    have length : 2 * (item.toChars.length + (itemsChars items).length + 1) ≤ bound + 1 := by
      simpa [Value.toChars] using enough
    obtain ⟨bound, rfl⟩ : ∃ fewer, bound = fewer + 1 := ⟨bound - 1, by omega⟩
    have short : 2 * item.toChars.length ≤ bound := by omega
    have first := readValue_toChars item hitem short
      (closes_itemsChars items rest)
    rw [Value.toChars, List.cons_append, List.cons_append, List.append_assoc]
    apply readValue_array
    · obtain ⟨c, tail, hchars, opening⟩ := exists_toChars_value hitem
      exact ⟨c, _, by rw [hchars, List.cons_append], opening⟩
    · exact readItems_itemsChars items hitems (by omega) first
  | .object [] => exact readValue_emptyObject bound rest
  | .object ((key, value) :: members) =>
    obtain ⟨hkey, hvalue, hmembers⟩ := h
    have length : 2 * (value.toChars.length + (membersChars members).length + 1) ≤ bound + 1 := by
      simp only [Value.toChars, List.length_append, List.length_cons] at enough
      omega
    obtain ⟨bound, rfl⟩ : ∃ fewer, bound = fewer + 1 := ⟨bound - 1, by omega⟩
    have short : 2 * value.toChars.length ≤ bound := by omega
    have first := readValue_toChars value hvalue short
      (closes_membersChars members rest)
    have opening : (Value.object ((key, value) :: members)).toChars ++ rest
        = '\x7b' :: (stringChars key ++ ':' :: (value.toChars
          ++ (membersChars members ++ rest))) := by
      simp only [Value.toChars, List.cons_append, List.append_assoc]
    rw [opening]
    exact readValue_object (readMembers_membersChars members hmembers (by omega) hkey first)

/-- The items after the first one. -/
theorem readItems_itemsChars (items : List Value) (h : itemsWritable items) {bound : Nat}
    (enough : 2 * (itemsChars items).length ≤ bound) {item : Value} {text rest : List Char}
    (first : readValue bound text = some (item, itemsChars items ++ rest)) :
    readItems (bound + 1) text = some (item :: items, rest) := by
  rw [readItems, first]
  cases items with
  | nil =>
    have closing : skipBlanks (itemsChars [] ++ rest) = ']' :: rest :=
      skipBlanks_cons rfl rest
    simp only [Option.bind_eq_bind, Option.bind_some, closing]
    rfl
  | cons next items =>
    obtain ⟨hnext, hitems⟩ := h
    have comma : skipBlanks (itemsChars (next :: items) ++ rest)
        = ',' :: (next.toChars ++ (itemsChars items ++ rest)) := by
      rw [itemsChars, List.cons_append, List.cons_append, List.append_assoc,
        skipBlanks_cons rfl]
    have length : 2 * (next.toChars.length + (itemsChars items).length + 1) ≤ bound := by
      simpa [itemsChars] using enough
    obtain ⟨bound, rfl⟩ : ∃ fewer, bound = fewer + 1 := ⟨bound - 1, by omega⟩
    have short : 2 * next.toChars.length ≤ bound := by omega
    have second := readValue_toChars next hnext short
      (closes_itemsChars items rest)
    have others := readItems_itemsChars items hitems (by omega) second
    simp only [Option.bind_eq_bind, Option.bind_some, comma, others]
    rfl

/-- The members after the first one. -/
theorem readMembers_membersChars (members : List (List Piece × Value))
    (h : membersWritable members) {bound : Nat}
    (enough : 2 * (membersChars members).length ≤ bound)
    {key : List Piece} (hkey : ∀ piece ∈ key, piece.IsWritable) {value : Value}
    {text rest : List Char}
    (first : readValue bound text = some (value, membersChars members ++ rest)) :
    readMembers (bound + 1) (stringChars key ++ ':' :: text)
      = some ((key, value) :: members, rest) := by
  have colon : skipBlanks (':' :: text) = ':' :: text := skipBlanks_cons rfl text
  rw [readMembers, stringChars_append, skipBlanks_cons rfl]
  simp only [readPieces_flatMap hkey, Option.bind_eq_bind, Option.bind_some, colon, first]
  match members with
  | [] =>
    have closing : skipBlanks (membersChars [] ++ rest) = '\x7d' :: rest :=
      skipBlanks_cons rfl rest
    simp only [closing]
    rfl
  | (next, nextValue) :: members =>
    obtain ⟨hnext, hvalue, hmembers⟩ := h
    have comma : skipBlanks (membersChars ((next, nextValue) :: members) ++ rest)
        = ',' :: (stringChars next ++ ':' :: (nextValue.toChars
          ++ (membersChars members ++ rest))) := by
      simp only [membersChars, List.cons_append, List.append_assoc]
      exact skipBlanks_cons rfl _
    have length : 2 * (nextValue.toChars.length + (membersChars members).length + 1) ≤ bound := by
      simp only [membersChars, List.length_append, List.length_cons] at enough
      omega
    obtain ⟨bound, rfl⟩ : ∃ fewer, bound = fewer + 1 := ⟨bound - 1, by omega⟩
    have short : 2 * nextValue.toChars.length ≤ bound := by omega
    have second := readValue_toChars nextValue hvalue short
      (closes_membersChars members rest)
    have others := readMembers_membersChars members hmembers (by omega) hnext second
    simp only [comma, others, Option.bind_some]
    rfl

end

/-- **The text of a writable value is a text of that value.** -/
theorem read?_toText {value : Value} (h : value.IsWritable) : read? value.toText = some value := by
  have closes : Closes [] := fun c hc => absurd hc (Option.not_mem_none c)
  have read := readValue_toChars value h (Nat.le_succ _) closes
  rw [List.append_nil] at read
  rw [read?, Value.toText, String.toList_ofList]
  simp only [read, Option.bind_eq_bind, Option.bind_some]
  rfl

/-! ## Records -/

@[simp] theorem Value.text?_ofText (text : String) : (Value.ofText text).text? = some text :=
  textOf?_piecesOf text

@[simp] theorem optional?_ofText (text : Option String) :
    optional? (·.text?) (text.map Value.ofText) = some text := by
  cases text with
  | none => rfl
  | some text => exact congrArg (Option.map some) (Value.text?_ofText text)

@[simp] theorem Value.items?_array (items : List Value) : (Value.array items).items? = some items :=
  rfl

@[simp] theorem Value.members?_ofFields (fields : List (String × Value)) :
    (Value.ofFields fields).members? = some fields := by
  rw [ofFields, members?]
  induction fields with
  | nil => rfl
  | cons field fields ih =>
    rw [List.map_cons, List.mapM_cons, ih, textOf?_piecesOf]
    rfl

/-- Items that are each read from what they were written as are read as a list. -/
theorem mapM_map_eq_some {α β : Type} {write : α → Value} {read : Value → Option β}
    {again : α → β} {items : List α} (h : ∀ item ∈ items, read (write item) = some (again item)) :
    (items.map write).mapM read = some (items.map again) := by
  induction items with
  | nil => rfl
  | cons item items ih =>
    obtain ⟨first, others⟩ := List.forall_mem_cons.1 h
    rw [List.map_cons, List.mapM_cons, first, ih others]
    rfl

theorem mapM_map_eq_self {α : Type} {write : α → Value} {read : Value → Option α}
    (h : ∀ item, read (write item) = some item) (items : List α) :
    (items.map write).mapM read = some items :=
  (mapM_map_eq_some fun item _ => h item).trans (congrArg some (List.map_id' items))

@[simp] theorem Value.texts?_array (texts : List String) :
    (Value.array (texts.map Value.ofText)).texts? = some texts :=
  mapM_map_eq_self Value.text?_ofText texts

/-- What is read from a list is read item by item. -/
theorem exists_of_mem_mapM {α β : Type} {read : α → Option β} {items : List α}
    {results : List β} (h : items.mapM read = some results) :
    ∀ result ∈ results, ∃ item ∈ items, read item = some result := by
  induction items generalizing results with
  | nil =>
    cases h
    exact nofun
  | cons item items ih =>
    rw [List.mapM_cons] at h
    obtain ⟨first, hfirst, h⟩ := Option.bind_eq_some_iff.1 h
    obtain ⟨others, hothers, h⟩ := Option.bind_eq_some_iff.1 h
    cases h
    refine List.forall_mem_cons.2 ⟨⟨item, List.mem_cons_self, hfirst⟩, fun result hmem => ?_⟩
    obtain ⟨other, hother, hresult⟩ := ih hothers result hmem
    exact ⟨other, List.mem_cons_of_mem _ hother, hresult⟩

/-- The fields of a record are looked up by their keys. -/
@[simp] theorem Value.fields?_ofFields (keys : List String) (fields : List (String × Value)) :
    (Value.ofFields fields).fields? keys = keys.mapM (Members.field? fields) := by
  change ((ofFields fields).members?.bind fun members => keys.mapM members.field?) = _
  rw [members?_ofFields, Option.bind_some]

theorem Members.field?_cons_of_ne {key other : String} (h : other ≠ key) (value : Value)
    (members : Members) : Members.field? ((other, value) :: members) key = members.field? key := by
  have differs : (other == key) = false := beq_false_of_ne h
  simp only [field?, List.filter_cons, differs, Bool.false_eq_true, if_false]

theorem Members.field?_cons_self {members : Members} {key : String}
    (h : ∀ member ∈ members, member.1 ≠ key) (value : Value) :
    Members.field? ((key, value) :: members) key = some (some value) := by
  have others : members.filter (·.1 == key) = [] := by
    simpa using h
  simp only [field?, List.filter_cons, beq_self_eq_true, if_true, others]

/-! ## Values that are kept -/

theorem Value.isSound_ofText (depth : Nat) (text : String) :
    (Value.ofText text).isSound depth = true := by
  rw [ofText, isSound, piecesOf, joinPieces_map_char]
  rfl

/-- The items of an array may nest one level less. -/
theorem Value.isSound_array {depth : Nat} {items : List Value}
    (h : ∀ item ∈ items, item.isSound depth = true) :
    (Value.array items).isSound (depth + 1) = true := by
  change itemsSound depth items = true
  induction items with
  | nil => rfl
  | cons item items ih =>
    obtain ⟨hitem, hitems⟩ := List.forall_mem_cons.1 h
    rw [itemsSound, hitem, ih hitems]
    rfl

theorem Value.isSound_ofFields {depth : Nat} {fields : List (String × Value)}
    (h : ∀ field ∈ fields, field.2.isSound depth = true) :
    (Value.ofFields fields).isSound (depth + 1) = true := by
  change membersSound depth (fields.map fun field => (piecesOf field.1, field.2)) = true
  induction fields with
  | nil => rfl
  | cons field fields ih =>
    obtain ⟨hfield, hfields⟩ := List.forall_mem_cons.1 h
    rw [List.map_cons, membersSound, hfield, ih hfields, piecesOf, joinPieces_map_char]
    rfl

end Rulebook.Json
