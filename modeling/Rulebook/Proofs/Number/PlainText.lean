import Rulebook.Proofs.Lexis.Spelling
import Rulebook.Proofs.Number.ReadBack
import Rulebook.Rule.Basic

/-!
# Numbers without exponents

A numeral without exponent is read back from its characters
(`Numeral.IsPlain.ofPlainChars_toChars`), and a decimal spread around the point keeps its value
(`Decimal.nearestCode_plain`). So the text of a finite number is a number of the rule language that
denotes the number itself, its sign included (`numberText_spec`).
-/

namespace Rulebook.Number

open Lexis (IsDigits IsUnsignedNumber IsNumber)

theorem Binary64.ext {x y : Binary64} (negative : x.negative = y.negative)
    (code : x.code = y.code) : x = y := by
  obtain ⟨_, _, _⟩ := x
  subst negative code
  rfl

/-! ## Numerals and their characters -/

/-- Digits, perhaps a point with further digits, and no exponent. -/
structure Numeral.IsPlain (n : Numeral) : Prop where
  whole : IsDigits n.whole
  fraction : ∀ c ∈ n.fraction, c.isDigit = true
  exponent : n.exponent = none

theorem ne_of_isDigit {c c' : Char} (h : c.isDigit = true) (h' : c'.isDigit = false) : c ≠ c' := by
  rintro rfl
  rw [h] at h'
  cases h'

namespace Numeral

variable {n : Numeral}

theorem negative_nearest (n : Numeral) : n.nearest.negative = n.negative := rfl

theorem code_nearest (n : Numeral) : n.nearest.code = n.decimal.nearestCode := rfl

/-- The characters after the sign. -/
def unsignedChars (n : Numeral) : List Char :=
  n.whole ++ if n.fraction.isEmpty then [] else '.' :: n.fraction

theorem IsPlain.toChars_eq (h : n.IsPlain) :
    n.toChars = (if n.negative then ['-'] else []) ++ n.unsignedChars := by
  simp [toChars, unsignedChars, h.exponent]

theorem IsPlain.isUnsignedNumber (h : n.IsPlain) : IsUnsignedNumber n.unsignedChars := by
  unfold unsignedChars
  cases hfraction : n.fraction with
  | nil =>
    rw [List.isEmpty_nil, if_pos rfl, List.append_nil]
    exact .whole h.whole
  | cons c fraction =>
    have digits : IsDigits (c :: fraction) := ⟨List.cons_ne_nil _ _, hfraction ▸ h.fraction⟩
    exact .point h.whole digits

theorem IsPlain.isNumber (h : n.IsPlain) : IsNumber n.toChars := by
  rw [h.toChars_eq]
  cases n.negative with
  | false => exact .unsigned h.isUnsignedNumber
  | true => exact .negative h.isUnsignedNumber

/-- What is before the point and what is behind it. -/
def splitAtPoint (negative : Bool) (unsigned : List Char) : Numeral :=
  ⟨negative, unsigned.takeWhile (· != '.'), (unsigned.dropWhile (· != '.')).drop 1, none⟩

theorem ofPlainChars_negative (unsigned : List Char) :
    ofPlainChars ('-' :: unsigned) = splitAtPoint true unsigned := rfl

theorem ofPlainChars_unsigned {c : Char} (h : c ≠ '-') (rest : List Char) :
    ofPlainChars (c :: rest) = splitAtPoint false (c :: rest) := by
  unfold ofPlainChars
  split
  next unsigned heq =>
    split at heq
    · next heq' => cases heq'; exact absurd rfl h
    · cases heq; rfl

theorem IsPlain.splitAtPoint_unsignedChars (h : n.IsPlain) :
    splitAtPoint n.negative n.unsignedChars = n := by
  have digits : ∀ c ∈ n.whole, (c != '.') = true := fun c hc =>
    bne_iff_ne.2 (ne_of_isDigit (h.whole.2 c hc) (by decide))
  have exponent := h.exponent
  obtain ⟨negative, whole, fraction, _⟩ := n
  subst exponent
  rw [splitAtPoint, unsignedChars, List.takeWhile_append_of_pos digits,
    List.dropWhile_append_of_pos digits]
  cases fraction with
  | nil => simp
  | cons c fraction => simp

/-- A numeral without exponent is the one that its characters spell. -/
theorem IsPlain.ofPlainChars_toChars (h : n.IsPlain) : ofPlainChars n.toChars = n := by
  have parts := h.splitAtPoint_unsignedChars
  rw [h.toChars_eq]
  cases sign : n.negative with
  | true =>
    rw [sign] at parts
    exact (ofPlainChars_negative _).trans parts
  | false =>
    obtain ⟨first, rest, hwhole⟩ := List.exists_cons_of_ne_nil h.whole.1
    have digit : first ≠ '-' :=
      ne_of_isDigit (h.whole.2 first (hwhole ▸ List.mem_cons_self)) (by decide)
    rw [sign, unsignedChars, hwhole] at parts
    rw [unsignedChars, hwhole]
    exact (ofPlainChars_unsigned digit _).trans parts

end Numeral

/-! ## Decimals spread around a point -/

theorem isDigit_toDigits (n : Nat) : ∀ c ∈ Nat.toDigits 10 n, c.isDigit = true :=
  fun _ => Nat.isDigit_of_mem_toDigits (by decide) (by decide)

theorem isDigit_zeros (n : Nat) : ∀ c ∈ List.replicate n '0', c.isDigit = true := by
  intro c hc
  rw [List.eq_of_mem_replicate hc]
  decide

theorem Decimal.negative_plain (d : Decimal) (negative pointZero : Bool) :
    (d.plain negative pointZero).negative = negative := by
  unfold plain
  split <;> rfl

theorem Decimal.isPlain_plain (d : Decimal) (negative pointZero : Bool) :
    (d.plain negative pointZero).IsPlain := by
  obtain ⟨digits, exponent⟩ := d
  cases exponent with
  | ofNat exponent =>
    refine ⟨⟨?_, ?_⟩, ?_, rfl⟩
    · exact List.append_ne_nil_of_left_ne_nil Nat.toDigits_ne_nil _
    · exact List.forall_mem_append.2 ⟨isDigit_toDigits digits, isDigit_zeros exponent⟩
    · cases pointZero with
      | false => exact nofun
      | true => exact isDigit_zeros 1
  | negSucc exponent =>
    have padded := List.forall_mem_append.2 ⟨isDigit_zeros (exponent + 1 + 1 -
      (Nat.toDigits 10 digits).length), isDigit_toDigits digits⟩
    refine ⟨⟨?_, fun c hc => padded c (List.mem_of_mem_take hc)⟩,
      fun c hc => padded c (List.mem_of_mem_drop hc), rfl⟩
    rw [← List.length_pos_iff]
    simp only [plain, List.length_take, List.length_append, List.length_replicate]
    omega

theorem Decimal.nearestCode_plain (d : Decimal) (negative pointZero : Bool) :
    (d.plain negative pointZero).decimal.nearestCode = d.nearestCode := by
  obtain ⟨digits, exponent⟩ := d
  cases exponent with
  | ofNat exponent =>
    have zeros : (if pointZero then ['0'] else []) = List.replicate pointZero.toNat '0' := by
      cases pointZero <;> rfl
    have value : (plain negative pointZero ⟨digits, .ofNat exponent⟩).decimal
        = ⟨digits * 10 ^ (exponent + pointZero.toNat), -(pointZero.toNat : Int)⟩ := by
      simp [plain, zeros, Numeral.decimal, Nat.ofDigitChars_append, Nat.ofDigitChars_ten_toDigits,
        Nat.ofDigitChars_replicate_zero, Nat.pow_add, Nat.mul_comm]
    have sum : -(pointZero.toNat : Int) + (exponent + pointZero.toNat : Nat) = .ofNat exponent := by
      simp only [Int.ofNat_eq_natCast]
      omega
    rw [value, nearestCode_mul_pow, sum]
  | negSucc exponent =>
    have value : (plain negative pointZero ⟨digits, .negSucc exponent⟩).decimal
        = ⟨digits, .negSucc exponent⟩ := by
      simp only [plain, Numeral.decimal, List.take_append_drop, Nat.ofDigitChars_append,
        Nat.ofDigitChars_replicate_zero, Nat.mul_zero, Nat.ofDigitChars_ten_toDigits,
        Option.getD_none, List.length_drop, List.length_append, List.length_replicate,
        Decimal.mk.injEq, true_and]
      omega
    rw [value]

end Rulebook.Number

namespace Rulebook

open Number (Binary64 Numeral)

/-! ## Main statement -/

/-- The decimal that the rules show for a number. -/
def wordedDecimal (x : Binary64) : Number.Decimal :=
  Number.shortest wordedNumbers.tieUp x.code

theorem numeral_wordedNumbers (x : Binary64) :
    wordedNumbers.numeral x = (wordedDecimal x).plain x.negative false := by
  rw [Number.Layout.numeral]
  exact if_pos rfl

theorem toList_numberText {x : Binary64} (h : x.isFinite = true) :
    (numberText x).toList = ((wordedDecimal x).plain x.negative false).toChars := by
  have finite : x.code < Number.infinityCode := of_decide_eq_true h
  have number : x.isNaN = false := decide_eq_false (Nat.lt_asymm finite)
  rw [numberText, number, h, if_neg Bool.false_ne_true, if_pos rfl, String.toList_ofList,
    numeral_wordedNumbers]

theorem nearest_wordedDecimal {x : Binary64} (h : x.isFinite = true) :
    ((wordedDecimal x).plain x.negative false).nearest = x := by
  have shortest := Number.nearestCode_shortest wordedNumbers.tieUp (of_decide_eq_true h)
  -- Field by field: to unfold the numeral would run the search for the shortest decimal.
  apply Number.Binary64.ext
  · rw [Numeral.negative_nearest, Number.Decimal.negative_plain]
  · rw [Numeral.code_nearest, Number.Decimal.nearestCode_plain, wordedDecimal, shortest]

/-- **The text of a finite number is a number of the rule language, and denotes it bit for bit.** -/
theorem numberText_spec {x : Binary64} (h : x.isFinite = true) :
    Lexis.IsNumber (numberText x).toList ∧
      (Numeral.ofPlainChars (numberText x).toList).nearest = x := by
  have plain := (wordedDecimal x).isPlain_plain x.negative false
  rw [toList_numberText h, plain.ofPlainChars_toChars]
  exact ⟨plain.isNumber, nearest_wordedDecimal h⟩

end Rulebook
