import Rulebook.Number.Layout
import Rulebook.Proofs.Number.Order
import Rulebook.Proofs.Number.PlainText

/-!
# Numerals of numbers

In every layout, the numeral of a finite number denotes the number (`nearest_numeral`). It has no
zeros before its first digit (`tidy_numeral`), and an exponent that is not too large
(`exponent_numeral_le`).
-/

namespace Rulebook.Number

open Lexis (IsDigits)

/-! ## The digits of a natural number -/

theorem head?_toDigits_ne {n : Nat} (h : n ≠ 0) : (Nat.toDigits 10 n).head? ≠ some '0' := by
  induction n using Nat.strongRecOn with
  | _ n ih =>
    by_cases small : n < 10
    · rw [Nat.toDigits_of_lt_base small, List.head?_cons]
      simpa using h
    · have shorter := ih (n / 10) (Nat.div_lt_self (by omega) (by decide)) (by omega)
      obtain ⟨first, rest, hdigits⟩ := List.exists_cons_of_ne_nil
        (Nat.toDigits_ne_nil (b := 10) (n := n / 10))
      rw [hdigits, List.head?_cons] at shorter
      rw [Nat.toDigits_of_base_le (by decide) (by omega), hdigits, List.cons_append,
        List.head?_cons]
      exact shorter

theorem pow_length_toDigits_le {n : Nat} (h : n ≠ 0) :
    10 ^ ((Nat.toDigits 10 n).length - 1) ≤ n := by
  rcases Nat.lt_or_ge n (10 ^ ((Nat.toDigits 10 n).length - 1)) with less | most
  · have positive := @Nat.length_toDigits_pos 10 n
    rcases Nat.eq_zero_or_pos ((Nat.toDigits 10 n).length - 1) with single | several
    · rw [single] at less
      omega
    · have shorter := (Nat.length_toDigits_le_iff (by decide) several).2 less
      omega
  · exact most

/-! ## Shape -/

/-- Digits before the point, with no zeros in front of other digits, and digits behind it. -/
structure Numeral.IsTidy (n : Numeral) : Prop where
  whole : IsDigits n.whole
  leading : n.whole.head? = some '0' → n.whole.length = 1
  fraction : ∀ c ∈ n.fraction, c.isDigit = true

namespace Decimal

theorem exponent_trim {d : Decimal} (h : d.trim.digits = 0) : d.trim.exponent = 0 := by
  fun_induction trim d with
  | case1 d zero => rfl
  | case2 d nonzero tenfold ih => exact ih h
  | case3 d nonzero rest => exact absurd h nonzero

theorem tidy_plain {d : Decimal} (h : d.digits = 0 → d.exponent = 0) (negative pointZero : Bool) :
    (d.plain negative pointZero).IsTidy := by
  have plain := d.isPlain_plain negative pointZero
  refine ⟨plain.whole, ?_, plain.fraction⟩
  obtain ⟨digits, exponent⟩ := d
  cases exponent with
  | ofNat exponent =>
    by_cases zero : digits = 0
    · obtain rfl : exponent = 0 := Int.ofNat.inj (h zero)
      subst zero
      exact fun _ => rfl
    · obtain ⟨first, rest, hdigits⟩ := List.exists_cons_of_ne_nil
        (Nat.toDigits_ne_nil (b := 10) (n := digits))
      have opening := head?_toDigits_ne zero
      rw [hdigits] at opening
      simp only [Decimal.plain, hdigits]
      exact fun leading => absurd leading opening
  | negSucc exponent =>
    by_cases short : (Nat.toDigits 10 digits).length ≤ exponent + 1
    · intro _
      simp only [Decimal.plain, List.length_take, List.length_append, List.length_replicate]
      omega
    · have zero : digits ≠ 0 := by
        intro zero
        rw [zero, Nat.toDigits_zero, List.length_singleton] at short
        omega
      have unpadded : exponent + 1 + 1 - (Nat.toDigits 10 digits).length = 0 := by omega
      obtain ⟨places, hplaces⟩ : ∃ places,
          (Nat.toDigits 10 digits).length - (exponent + 1) = places + 1 :=
        ⟨(Nat.toDigits 10 digits).length - (exponent + 1) - 1, by omega⟩
      have opening := head?_toDigits_ne zero
      simp only [Decimal.plain, unpadded, List.replicate_zero, List.nil_append, hplaces]
      rw [List.head?_take, if_neg (Nat.succ_ne_zero places)]
      exact fun leading => absurd leading opening

theorem tidy_scientific (d : Decimal) (negative : Bool) : (d.scientific negative).IsTidy := by
  have digits := isDigit_toDigits d.digits
  have some_digit : 0 < (Nat.toDigits 10 d.digits).length := Nat.length_toDigits_pos
  refine ⟨⟨?_, fun c hc => digits c (List.mem_of_mem_take hc)⟩, fun _ => ?_,
    fun c hc => digits c (List.mem_of_mem_drop hc)⟩
  · rw [scientific, ← List.length_pos_iff, List.length_take]
    omega
  · rw [scientific, List.length_take]
    omega

/-! ## Value -/

theorem negative_scientific (d : Decimal) (negative : Bool) :
    (d.scientific negative).negative = negative := rfl

theorem decimal_scientific (d : Decimal) (negative : Bool) :
    (d.scientific negative).decimal = d := by
  have some_digit : 0 < (Nat.toDigits 10 d.digits).length := Nat.length_toDigits_pos
  obtain ⟨digits, exponent⟩ := d
  simp only [scientific, Numeral.decimal, List.take_append_drop, Nat.ofDigitChars_ten_toDigits,
    Option.getD_some, List.length_drop, Decimal.mk.injEq, true_and]
  omega

/-- A natural number that a decimal reaches rounds to no larger code. -/
theorem nearestCode_le {d : Decimal} {n shift : Nat} (fine : 0 ≤ d.exponent + shift)
    (h : n * 10 ^ shift ≤ d.digits * 10 ^ (d.exponent + shift).toNat) :
    Number.nearestCode n 1 ≤ d.nearestCode := by
  rw [d.nearestCode_eq fine]
  apply nearestCode_mono (by decide) (Nat.pow_pos (by decide))
  rwa [Nat.mul_one]

theorem nearestCode_pow_309 : Number.nearestCode (10 ^ 309) 1 = infinityCode := by
  decide +kernel

/-- A finite number has at most 309 digits before the point. -/
theorem leadingExponent_lt {d : Decimal} (finite : d.nearestCode < infinityCode)
    (nonzero : d.digits ≠ 0) : d.leadingExponent < 309 := by
  by_cases large : 309 ≤ d.leadingExponent
  · have fine : 0 ≤ d.exponent + (d.exponent.natAbs : Nat) := by omega
    have reached : 10 ^ 309 * 10 ^ d.exponent.natAbs
        ≤ d.digits * 10 ^ (d.exponent + (d.exponent.natAbs : Nat)).toNat := by
      calc 10 ^ 309 * 10 ^ d.exponent.natAbs
          ≤ 10 ^ ((Nat.toDigits 10 d.digits).length - 1)
            * 10 ^ (d.exponent + (d.exponent.natAbs : Nat)).toNat := by
              rw [← Nat.pow_add, ← Nat.pow_add]
              apply Nat.pow_le_pow_right (by decide)
              rw [leadingExponent] at large
              omega
        _ ≤ _ := Nat.mul_le_mul_right _ (pow_length_toDigits_le nonzero)
    have := nearestCode_le fine reached
    rw [nearestCode_pow_309] at this
    omega
  · omega

theorem exponent_scientific_le {d : Decimal} (finite : d.nearestCode < infinityCode)
    (zeros : d.digits = 0 → d.exponent = 0) (negative : Bool) :
    (d.scientific negative).exponent.getD 0 ≤ 308 := by
  change d.leadingExponent ≤ 308
  by_cases zero : d.digits = 0
  · rw [leadingExponent, zero, zeros zero]
    decide
  · have := leadingExponent_lt finite zero
    omega

end Decimal

theorem exponent_shortest {tieUp : Nat → Bool} {code : Nat}
    (h : (shortest tieUp code).digits = 0) : (shortest tieUp code).exponent = 0 := by
  rw [shortest] at h ⊢
  exact Decimal.exponent_trim h

theorem numeral_cases (layout : Layout) (x : Binary64) :
    (layout.isPlain (shortest layout.tieUp x.code).leadingExponent = true ∧
      layout.numeral x
        = (shortest layout.tieUp x.code).plain x.negative layout.pointZero) ∨
      layout.numeral x = (shortest layout.tieUp x.code).scientific x.negative := by
  rw [Layout.numeral]
  by_cases plain : layout.isPlain (shortest layout.tieUp x.code).leadingExponent = true
  · exact .inl ⟨plain, if_pos plain⟩
  · exact .inr (if_neg plain)

theorem tidy_numeral (layout : Layout) (x : Binary64) : (layout.numeral x).IsTidy := by
  rcases numeral_cases layout x with ⟨-, h⟩ | h
  · rw [h]
    exact Decimal.tidy_plain exponent_shortest _ _
  · rw [h]
    exact Decimal.tidy_scientific _ _

/-- **The numeral of a finite number denotes it.** -/
theorem nearest_numeral (layout : Layout) {x : Binary64} (h : x.isFinite = true) :
    (layout.numeral x).nearest = x := by
  have code := nearestCode_shortest layout.tieUp (of_decide_eq_true h)
  rcases numeral_cases layout x with ⟨-, plain⟩ | scientific
  · rw [plain]
    apply Binary64.ext
    · rw [Numeral.negative_nearest, Decimal.negative_plain]
    · rw [Numeral.code_nearest, Decimal.nearestCode_plain, code]
  · rw [scientific]
    apply Binary64.ext
    · rw [Numeral.negative_nearest, Decimal.negative_scientific]
    · rw [Numeral.code_nearest, Decimal.decimal_scientific, code]

theorem exponent_numeral_le (layout : Layout) {x : Binary64} (h : x.isFinite = true) :
    (layout.numeral x).exponent.getD 0 ≤ 308 := by
  have code := nearestCode_shortest layout.tieUp (of_decide_eq_true h)
  rcases numeral_cases layout x with ⟨-, plain⟩ | scientific
  · rw [plain, (Decimal.isPlain_plain _ _ _).exponent]
    decide
  · rw [scientific]
    refine Decimal.exponent_scientific_le ?_ exponent_shortest _
    rw [code]
    exact of_decide_eq_true h

end Rulebook.Number
