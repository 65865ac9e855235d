import Rulebook.Json.Numbers
import Rulebook.Proofs.Number.Layout

/-!
# Stored numbers read again

Reading a number of a JSON text rounds several times, so the number that a stored numeral is read as
need not be the one that was stored. Two things are certain. A finite number is read as some finite
number (`exists_readNumber?`), although a product of rounded factors could overflow. And a numeral
with few digits and a small exponent is read as the number nearest to it (`readNumber?_of_short`).
-/

namespace Rulebook.Json

open Number

/-! ## The significand -/

/-- Further digits move the digits before them to the left. -/
theorem mul_pow_le_ofDigitChars (digits : List Char) (start : Nat) :
    start * 10 ^ digits.length ≤ Nat.ofDigitChars 10 digits start := by
  induction digits generalizing start with
  | nil => simp
  | cons c digits ih =>
    calc start * 10 ^ (c :: digits).length = 10 * start * 10 ^ digits.length := by
          rw [List.length_cons, Nat.pow_succ, Nat.mul_comm _ 10, Nat.mul_comm 10 start,
            Nat.mul_assoc]
      _ ≤ (10 * start + (c.toNat - '0'.toNat)) * 10 ^ digits.length :=
          Nat.mul_le_mul_right _ (Nat.le_add_right _ _)
      _ ≤ Nat.ofDigitChars 10 digits (10 * start + (c.toNat - '0'.toNat)) := ih _
      _ = Nat.ofDigitChars 10 (c :: digits) start := Nat.ofDigitChars_cons.symm

theorem le_ofDigitChars (digits : List Char) (start : Nat) :
    start ≤ Nat.ofDigitChars 10 digits start :=
  Nat.le_trans (Nat.le_mul_of_pos_right start (Nat.pow_pos (by decide)))
    (mul_pow_le_ofDigitChars digits start)

/-- Leading digits are collected, as many as fit. -/
theorem collect_spec {start : Nat} (digits : List Char) (h : start ≤ significandLimit) :
    ∃ front, digits = front ++ (collect start digits).2 ∧
      (collect start digits).1 = Nat.ofDigitChars 10 front start ∧
      (collect start digits).1 ≤ significandLimit := by
  induction digits generalizing start with
  | nil => exact ⟨[], rfl, rfl, h⟩
  | cons c digits ih =>
    by_cases fits : start * 10 + (c.toNat - '0'.toNat) ≤ significandLimit
    · obtain ⟨front, hdigits, hsignificand, hlimit⟩ := ih fits
      rw [collect, if_pos fits]
      refine ⟨c :: front, congrArg (c :: ·) hdigits, ?_, hlimit⟩
      rw [hsignificand, Nat.ofDigitChars_cons, Nat.mul_comm start]
    · rw [collect, if_neg fits]
      exact ⟨[], rfl, rfl, h⟩

/-- All digits are collected where their value fits. -/
theorem collect_eq {start : Nat} {digits : List Char}
    (h : Nat.ofDigitChars 10 digits start ≤ significandLimit) :
    collect start digits = (Nat.ofDigitChars 10 digits start, []) := by
  induction digits generalizing start with
  | nil => rfl
  | cons c digits ih =>
    rw [Nat.ofDigitChars_cons, Nat.mul_comm] at h
    rw [collect, if_pos (Nat.le_trans (le_ofDigitChars digits _) h), ih h, Nat.ofDigitChars_cons,
      Nat.mul_comm]

theorem ofDigitChars_lt {digits : List Char} (h : ∀ c ∈ digits, c.isDigit = true) :
    Nat.ofDigitChars 10 digits 0 < 10 ^ digits.length := by
  have from_start (start : Nat) :
      Nat.ofDigitChars 10 digits start < (start + 1) * 10 ^ digits.length := by
    induction digits generalizing start with
    | nil => simp
    | cons c digits ih =>
      obtain ⟨hc, hdigits⟩ := List.forall_mem_cons.1 h
      have digit : c.toNat - '0'.toNat ≤ 9 := by
        rw [Char.isDigit, Bool.and_eq_true, decide_eq_true_eq, decide_eq_true_eq] at hc
        have high : c.toNat ≤ 57 := hc.2
        have zero : '0'.toNat = 48 := rfl
        omega
      calc Nat.ofDigitChars 10 (c :: digits) start
          = Nat.ofDigitChars 10 digits (10 * start + (c.toNat - '0'.toNat)) :=
            Nat.ofDigitChars_cons ..
        _ < (10 * start + (c.toNat - '0'.toNat) + 1) * 10 ^ digits.length := ih hdigits _
        _ ≤ (start + 1) * 10 * 10 ^ digits.length := Nat.mul_le_mul_right _ (by omega)
        _ = (start + 1) * 10 ^ (c :: digits).length := by
          rw [List.length_cons, Nat.pow_succ, Nat.mul_assoc, Nat.mul_comm 10]
  have := from_start 0
  omega

/-! ## Powers of ten and products -/

theorem powerCode_mono {exponent exponent' : Nat} (h : exponent ≤ exponent') :
    powerCode exponent ≤ powerCode exponent' :=
  nearestCode_le_nearestCode Nat.one_pos (Nat.pow_le_pow_right (by decide) h)

theorem powerCode_lt {exponent : Nat} (h : exponent ≤ maxPower) :
    powerCode exponent < infinityCode := by
  have largest : powerCode maxPower < infinityCode := by decide +kernel
  exact Nat.lt_of_le_of_lt (powerCode_mono h) largest

/-- A power of ten is at least one. -/
theorem one_le_powerCode {exponent : Nat} (h : exponent ≤ maxPower) :
    2 ^ unitShift ≤ unitsOf (powerCode exponent) := by
  have one : unitsOf (powerCode 0) = 2 ^ unitShift := by
    rw [powerCode, unitsOf_nearestCode_nat (by decide), Nat.pow_eq, Nat.pow_zero, Nat.one_mul]
  rw [← one]
  exact unitsOf_mono (powerCode_lt h) (powerCode_mono (Nat.zero_le exponent))

theorem quotientCode_le {a b : Nat} (ha : a < infinityCode) (hb : 2 ^ unitShift ≤ unitsOf b) :
    quotientCode a b ≤ a := by
  have one : 0 < 2 ^ unitShift := Nat.two_pow_pos _
  calc quotientCode a b ≤ nearestCode (unitsOf a) (2 ^ unitShift) :=
        nearestCode_mono (by omega) one (Nat.mul_le_mul_left _ hb)
    _ = a := nearestCode_unitsOf ha

/-- Scaling down does not enlarge. -/
theorem scaleDown_le {code exponent : Nat} (h : code < infinityCode) :
    scaleDown code exponent ≤ code := by
  fun_induction scaleDown code exponent with
  | case1 code exponent small => exact quotientCode_le h (one_le_powerCode small)
  | case2 exponent large => exact Nat.zero_le _
  | case3 code exponent large nonzero ih =>
    have step := quotientCode_le h (one_le_powerCode (Nat.le_refl maxPower))
    exact Nat.le_trans (ih (Nat.lt_of_le_of_lt step h)) step

theorem productCode_mono {a a' b b' : Nat} (finite : a' < infinityCode) (ha : a ≤ a')
    (finite' : b' < infinityCode) (hb : b ≤ b') : productCode a b ≤ productCode a' b' := by
  apply nearestCode_le_nearestCode (by decide +kernel)
  exact Nat.mul_le_mul (unitsOf_mono finite ha) (unitsOf_mono finite' hb)

/-! ## Scaling up without overflow -/

/-- The code of the largest finite magnitude. -/
def largestCode : Nat := infinityCode - 1

/-- Half way between the two largest finite magnitudes. -/
@[irreducible] def belowLargest : Nat := (2 ^ 54 - 3) * 2 ^ 970

theorem le_of_nearestCode_lt {n bound code : Nat} (next : nearestCode (bound + 1) 1 = code)
    (h : nearestCode n 1 < code) : n ≤ bound := by
  rcases Nat.lt_or_ge bound n with above | below
  · have codes : nearestCode (bound + 1) 1 ≤ nearestCode n 1 :=
      nearestCode_le_nearestCode Nat.one_pos above
    omega
  · exact below

theorem nearestCode_belowLargest : nearestCode (belowLargest + 1) 1 = largestCode := by
  decide +kernel

/-- The largest power of ten that any significand can be multiplied with. -/
def safePower : Nat := 288

/--
The largest product below the safe power, and then the largest product for each power of ten. All
others follow, as products keep the order of their factors.
-/
theorem productCode_lt_of_largest :
    productCode (nearestCode significandLimit 1) (powerCode safePower) < infinityCode ∧
    ∀ more < 20, productCode (nearestCode (belowLargest / 10 ^ (safePower + 1 + more)) 1)
      (powerCode (safePower + 1 + more)) < infinityCode := by
  decide +kernel

theorem nearestCode_significand_lt {significand : Nat} (h : significand ≤ significandLimit) :
    nearestCode significand 1 < infinityCode := by
  have largest : nearestCode significandLimit 1 < infinityCode := by decide +kernel
  exact Nat.lt_of_le_of_lt (nearestCode_le_nearestCode Nat.one_pos h) largest

/-- A product that stays below the largest magnitude does so with rounded factors as well. -/
theorem productCode_powerCode_lt {significand exponent : Nat}
    (limit : significand ≤ significandLimit) (small : exponent ≤ maxPower)
    (h : significand * 10 ^ exponent ≤ belowLargest) :
    productCode (nearestCode significand 1) (powerCode exponent) < infinityCode := by
  obtain ⟨safe, checked⟩ := productCode_lt_of_largest
  by_cases large : safePower < exponent
  · obtain ⟨more, rfl⟩ : ∃ more, exponent = safePower + 1 + more :=
      ⟨exponent - (safePower + 1), by omega⟩
    have few : more < 20 := by
      have : maxPower = safePower + 20 := rfl
      omega
    have bound : significand ≤ belowLargest / 10 ^ (safePower + 1 + more) :=
      (Nat.le_div_iff_mul_le (Nat.pow_pos (by decide))).2 h
    have fits : belowLargest / 10 ^ (safePower + 1 + more) ≤ significandLimit := by
      have widest : belowLargest / 10 ^ (safePower + 1) ≤ significandLimit := by
        decide +kernel
      refine Nat.le_trans (Nat.div_le_div_left ?_ (Nat.pow_pos (by decide))) widest
      exact Nat.pow_le_pow_right (by decide) (Nat.le_add_right _ _)
    have product := productCode_mono (nearestCode_significand_lt fits)
      (nearestCode_le_nearestCode Nat.one_pos bound) (powerCode_lt small) (Nat.le_refl _)
    exact Nat.lt_of_le_of_lt product (checked more few)
  · have power : safePower ≤ maxPower := by decide
    have product := productCode_mono (nearestCode_significand_lt (Nat.le_refl _))
      (nearestCode_le_nearestCode Nat.one_pos limit) (powerCode_lt power)
      (powerCode_mono (Nat.le_of_not_lt large))
    exact Nat.lt_of_le_of_lt product safe

/-- Only zero stays finite when it is multiplied with a power of ten that is not. -/
theorem eq_zero_of_mul_pow_le {significand exponent : Nat} (large : ¬ exponent ≤ maxPower)
    (h : significand * 10 ^ exponent ≤ belowLargest) : significand = 0 := by
  have power : 10 ^ (maxPower + 1) ≤ 10 ^ exponent :=
    Nat.pow_le_pow_right (by decide) (by omega)
  have limit : belowLargest < 10 ^ (maxPower + 1) := by decide +kernel
  rcases Nat.eq_zero_or_pos significand with zero | positive
  · exact zero
  · have := Nat.le_mul_of_pos_left (10 ^ exponent) positive
    omega

theorem exists_scaleUp? {significand exponent : Nat} (limit : significand ≤ significandLimit)
    (h : nearestCode (significand * 10 ^ exponent) 1 < largestCode) :
    ∃ code < infinityCode, scaleUp? (nearestCode significand 1) exponent = some code := by
  have below := le_of_nearestCode_lt nearestCode_belowLargest h
  unfold scaleUp?
  by_cases small : exponent ≤ maxPower
  · have finite := productCode_powerCode_lt limit small below
    rw [if_pos small]
    exact ⟨_, finite, if_pos finite⟩
  · rw [if_neg small, eq_zero_of_mul_pow_le small below]
    exact ⟨0, by decide, if_pos (nearestCode_zero Nat.one_pos)⟩

/-! ## Reading a stored number -/

/--
A numeral whose digits before the point fit, with no excessive exponent, is read as a finite number
when it lies below the largest one.
-/
theorem exists_magnitudeCode? {n : Numeral}
    (whole : Nat.ofDigitChars 10 n.whole 0 ≤ significandLimit)
    (written : n.exponent.getD 0 ≤ exponentLimit)
    (finite : n.decimal.nearestCode < largestCode) :
    ∃ code < infinityCode, magnitudeCode? n = some code := by
  obtain ⟨front, hfraction, hsignificand, limit⟩ := collect_spec n.fraction whole
  rw [magnitudeCode?, collect_eq whole]
  dsimp only
  generalize (collect (Nat.ofDigitChars 10 n.whole 0) n.fraction).1 = significand at *
  generalize (collect (Nat.ofDigitChars 10 n.whole 0) n.fraction).2 = rest at *
  have length : n.fraction.length = front.length + rest.length := by
    rw [hfraction, List.length_append]
  have reached : significand * 10 ^ rest.length ≤ n.decimal.digits := by
    rw [Numeral.decimal, Nat.ofDigitChars_append, hfraction, Nat.ofDigitChars_append,
      ← hsignificand]
    exact mul_pow_le_ofDigitChars rest significand
  have exponent : n.decimal.exponent = n.exponent.getD 0 - n.fraction.length := rfl
  rw [if_neg (by omega)]
  by_cases low : n.exponent.getD 0 < -exponentLimit
  · rw [if_pos low]
    exact ⟨0, by decide, rfl⟩
  · rw [if_neg low]
    split
    · next _ power hpower =>
      rw [List.length_nil] at hpower
      have place : n.decimal.exponent + (rest.length : Nat) = (power : Int) := by
        simp only [Int.ofNat_eq_natCast] at hpower
        omega
      have value : significand * 10 ^ power * 10 ^ rest.length
          ≤ n.decimal.digits * 10 ^ (n.decimal.exponent + (rest.length : Nat)).toNat := by
        rw [place, Int.toNat_natCast, Nat.mul_right_comm]
        exact Nat.mul_le_mul_right _ reached
      apply exists_scaleUp? limit
      exact Nat.lt_of_le_of_lt (Decimal.nearestCode_le (by omega) value) finite
    · next _ power hpower =>
      have small := nearestCode_significand_lt limit
      exact ⟨_, Nat.lt_of_le_of_lt (scaleDown_le small) small, rfl⟩

/-- A number that is written without exponent has at most 16 digits before the point. -/
theorem length_whole_plain_le {d : Decimal} (h : d.leadingExponent < 16)
    (negative pointZero : Bool) : (d.plain negative pointZero).whole.length ≤ 16 := by
  obtain ⟨digits, exponent⟩ := d
  have some_digit : 0 < (Nat.toDigits 10 digits).length := Nat.length_toDigits_pos
  rw [Decimal.leadingExponent] at h
  cases exponent with
  | ofNat exponent =>
    simp only [Int.ofNat_eq_natCast] at h
    simp only [Decimal.plain, List.length_append, List.length_replicate]
    omega
  | negSucc exponent =>
    simp only at h
    simp only [Decimal.plain, List.length_take, List.length_append, List.length_replicate]
    omega

theorem whole_numeral_le (x : Binary64) :
    Nat.ofDigitChars 10 (numberLayout.numeral x).whole 0 ≤ significandLimit := by
  have digits := (tidy_numeral numberLayout x).whole.2
  have length : (numberLayout.numeral x).whole.length ≤ 16 := by
    rcases numeral_cases numberLayout x with ⟨plain, numeral⟩ | numeral
    · rw [numeral]
      refine length_whole_plain_le ?_ _ _
      exact of_decide_eq_true (Bool.and_eq_true_iff.1 plain).2
    · rw [numeral, Decimal.scientific, List.length_take]
      omega
  have limit : 10 ^ 16 ≤ significandLimit := by decide
  calc Nat.ofDigitChars 10 (numberLayout.numeral x).whole 0
      ≤ 10 ^ (numberLayout.numeral x).whole.length := Nat.le_of_lt (ofDigitChars_lt digits)
    _ ≤ 10 ^ 16 := Nat.pow_le_pow_right (by decide) length
    _ ≤ significandLimit := limit

/-- The largest number has to be looked at itself: the rounding of its digits goes down. -/
theorem exists_magnitudeCode?_largest (negative : Bool) :
    ∃ code < infinityCode, magnitudeCode?
      (numberLayout.numeral ⟨negative, largestCode, by decide⟩) = some code := by
  have read : ∀ negative, (magnitudeCode?
      (numberLayout.numeral ⟨negative, largestCode, by decide⟩)).any (· < infinityCode) = true := by
    decide +kernel
  obtain ⟨code, hread, finite⟩ := (Option.any_eq_true _ _).1 (read negative)
  exact ⟨code, of_decide_eq_true finite, hread⟩

theorem readNumber?_eq_some_iff {n : Numeral} {y : Binary64} :
    readNumber? n = some y ↔ y.negative = n.negative ∧ magnitudeCode? n = some y.code := by
  unfold readNumber?
  split
  · next code hcode =>
    constructor
    · intro h
      cases h
      exact ⟨rfl, hcode⟩
    · intro h
      obtain ⟨negative, h⟩ := h
      exact congrArg some (Binary64.ext negative.symm (Option.some.inj (hcode.symm.trans h)))
  · next hcode =>
    rw [hcode]
    exact ⟨nofun, fun h => nomatch h.2⟩

theorem scaleUp?_lt_infinity {code exponent result : Nat}
    (h : scaleUp? code exponent = some result) : result < infinityCode := by
  unfold scaleUp? at h
  split at h
  · dsimp only at h
    split at h
    · next finite => exact Option.some.inj h ▸ finite
    · cases h
  · split at h
    · exact Option.some.inj h ▸ (by decide)
    · cases h

/-- A numeral beyond the finite numbers is not read. -/
theorem isFinite_of_readNumber? {n : Numeral} {x : Binary64} (h : readNumber? n = some x) :
    x.isFinite = true := by
  obtain ⟨-, h⟩ := readNumber?_eq_some_iff.1 h
  apply decide_eq_true
  obtain ⟨-, -, -, whole⟩ := collect_spec n.whole (Nat.zero_le significandLimit)
  obtain ⟨-, -, -, limit⟩ := collect_spec n.fraction whole
  simp only [magnitudeCode?] at h
  split at h
  · split at h
    · exact Option.some.inj h ▸ (by decide)
    · cases h
  · split at h
    · exact Option.some.inj h ▸ (by decide)
    · split at h
      · exact scaleUp?_lt_infinity h
      · have small := nearestCode_significand_lt limit
        exact Option.some.inj h ▸ Nat.lt_of_le_of_lt (scaleDown_le small) small

/-- **Every finite number is read again as some finite number of its sign.** -/
theorem exists_readNumber? {x : Binary64} (h : x.isFinite = true) :
    ∃ y : Binary64, y.isFinite = true ∧ y.negative = x.negative ∧
      readNumber? (numberLayout.numeral x) = some y := by
  have finite : x.code < infinityCode := of_decide_eq_true h
  have nearest := nearest_numeral numberLayout h
  have exists_code : ∃ code < infinityCode,
      magnitudeCode? (numberLayout.numeral x) = some code := by
    by_cases largest : x.code = largestCode
    · obtain ⟨negative, code, code_lt⟩ := x
      obtain rfl : code = largestCode := largest
      exact exists_magnitudeCode?_largest negative
    · refine exists_magnitudeCode? (whole_numeral_le x) ?_ ?_
      · exact Int.le_trans (exponent_numeral_le numberLayout h) (by decide)
      · rw [← Numeral.code_nearest, nearest, largestCode]
        rw [largestCode] at largest
        omega
  obtain ⟨code, hcode, hread⟩ := exists_code
  refine ⟨⟨x.negative, code, Nat.lt_trans hcode (by decide)⟩, decide_eq_true hcode, rfl, ?_⟩
  refine readNumber?_eq_some_iff.2 ⟨?_, hread⟩
  rw [← Numeral.negative_nearest, nearest]

/-! ## Numerals that are read exactly -/

/-- Digits that fit in 53 bits, and a power of ten that has a number of its own. -/
structure IsShort (n : Numeral) : Prop where
  digits : n.decimal.digits < 2 ^ 53
  low : -22 ≤ n.decimal.exponent
  high : n.decimal.exponent ≤ 22

instance (n : Numeral) : Decidable (IsShort n) :=
  decidable_of_iff
    (n.decimal.digits < 2 ^ 53 ∧ -22 ≤ n.decimal.exponent ∧ n.decimal.exponent ≤ 22)
    ⟨fun h => ⟨h.1, h.2.1, h.2.2⟩, fun h => ⟨h.digits, h.low, h.high⟩⟩

/-- The small powers of ten are numbers. -/
theorem unitsOf_powerCode : ∀ exponent < 23,
    unitsOf (powerCode exponent) = 10 ^ exponent * 2 ^ unitShift := by
  decide +kernel

theorem scaleDown_of_short {digits exponent : Nat} (hdigits : digits < 2 ^ 53)
    (hexponent : exponent < 23) :
    scaleDown (nearestCode digits 1) exponent = nearestCode digits (10 ^ exponent) := by
  have small : exponent ≤ maxPower := Nat.le_trans (Nat.le_of_lt hexponent) (by decide)
  rw [scaleDown, if_pos small, quotientCode, unitsOf_nearestCode_nat hdigits,
    unitsOf_powerCode exponent hexponent, nearestCode_mul_right _ _ (Nat.pow_pos (by decide))]

theorem scaleUp?_of_short {digits exponent : Nat} (hdigits : digits < 2 ^ 53)
    (hexponent : exponent < 23) :
    scaleUp? (nearestCode digits 1) exponent = some (nearestCode (digits * 10 ^ exponent) 1) := by
  have small : exponent ≤ maxPower := Nat.le_trans (Nat.le_of_lt hexponent) (by decide)
  have product : productCode (nearestCode digits 1) (powerCode exponent)
      = nearestCode (digits * 10 ^ exponent) 1 := by
    have one : 0 < 2 ^ unitShift * 2 ^ unitShift := Nat.mul_pos (Nat.two_pow_pos _)
      (Nat.two_pow_pos _)
    rw [productCode, unitsOf_nearestCode_nat hdigits, unitsOf_powerCode exponent hexponent,
      Nat.mul_mul_mul_comm, Nat.shiftLeft_eq, Nat.two_mul, Nat.pow_add,
      nearestCode_mul_right _ _ one]
  have finite : nearestCode (digits * 10 ^ exponent) 1 < infinityCode := by
    have largest : nearestCode (2 ^ 53 * 10 ^ 22) 1 < infinityCode := by decide +kernel
    refine Nat.lt_of_le_of_lt (nearestCode_le_nearestCode Nat.one_pos ?_) largest
    exact Nat.mul_le_mul (Nat.le_of_lt hdigits)
      (Nat.pow_le_pow_right (by decide) (Nat.le_of_lt_succ hexponent))
  rw [scaleUp?, if_pos small, product]
  exact if_pos finite

/-- A short numeral is read as the number nearest to it. -/
theorem magnitudeCode?_of_short {n : Numeral} (short : IsShort n)
    (written : n.exponent.getD 0 ≤ exponentLimit) :
    magnitudeCode? n = some n.decimal.nearestCode := by
  obtain ⟨hdigits, low, high⟩ := short
  have digits : Nat.ofDigitChars 10 n.fraction (Nat.ofDigitChars 10 n.whole 0)
      = n.decimal.digits := by
    rw [Numeral.decimal, Nat.ofDigitChars_append]
  have exponent : n.exponent.getD 0 - n.fraction.length = n.decimal.exponent := rfl
  have limit : n.decimal.digits ≤ significandLimit := by
    have room : 2 ^ 53 ≤ significandLimit := by decide
    omega
  have fraction : Nat.ofDigitChars 10 n.fraction (Nat.ofDigitChars 10 n.whole 0)
      ≤ significandLimit := digits ▸ limit
  have whole := Nat.le_trans (le_ofDigitChars n.fraction _) fraction
  have above : ¬ n.exponent.getD 0 < -exponentLimit := by
    have : exponentLimit = 0x7FFFFFFF := rfl
    omega
  have place : n.exponent.getD 0 + ([] : List Char).length
      - ((n.fraction.length - ([] : List Char).length : Nat) : Int) = n.decimal.exponent := by
    rw [← exponent, List.length_nil]
    omega
  rw [magnitudeCode?, collect_eq whole]
  dsimp only
  rw [collect_eq fraction, if_neg (by omega), if_neg above, place, digits]
  clear place exponent
  generalize n.decimal = d at *
  obtain ⟨digits, exponent⟩ := d
  simp only at low high
  cases exponent with
  | ofNat power =>
    simp only [Int.ofNat_eq_natCast] at high
    exact scaleUp?_of_short hdigits (by omega)
  | negSucc power => exact congrArg some (scaleDown_of_short hdigits (by omega))

/-- **A number with a short numeral is read again bit for bit.** -/
theorem readNumber?_of_short {x : Binary64} (h : x.isFinite = true)
    (short : IsShort (numberLayout.numeral x)) :
    readNumber? (numberLayout.numeral x) = some x := by
  have nearest := nearest_numeral numberLayout h
  have written := Int.le_trans (exponent_numeral_le numberLayout h)
    (by decide : 308 ≤ exponentLimit)
  refine readNumber?_eq_some_iff.2 ⟨?_, ?_⟩
  · rw [← Numeral.negative_nearest, nearest]
  · rw [magnitudeCode?_of_short short written, ← Numeral.code_nearest, nearest]

end Rulebook.Json
