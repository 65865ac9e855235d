import Mathlib.Algebra.Group.Nat.Defs
import Rulebook.Number.Layout

/-!
# Shortest decimals read back

Rounding sees the value of a ratio and not how it is written (`nearestCode_mul_right`), so a
decimal may be brought to any power of ten (`Decimal.nearestCode_eq`). A whole number of units
rounds to the code it came from (`nearestCode_unitsOf`), and the shortest decimal is a neighbour
that reads back or the exact value, so it reads back too (`nearestCode_shortest`).
-/

namespace Rulebook.Number

/-! ## Ratios -/

theorem roundHalfEven_mul_right (num den : Nat) {k : Nat} (h : 0 < k) :
    roundHalfEven (num * k) (den * k) = roundHalfEven num den := by
  have quotient : num * k / (den * k) = num / den := Nat.mul_div_mul_right _ _ h
  have rest : 2 * (num * k % (den * k)) = 2 * (num % den) * k := by
    rw [Nat.mul_mod_mul_right, Nat.mul_assoc]
  have less : 2 * (num % den) * k < den * k ↔ 2 * (num % den) < den := Nat.mul_lt_mul_right h
  have more : den * k < 2 * (num % den) * k ↔ den < 2 * (num % den) := Nat.mul_lt_mul_right h
  simp only [roundHalfEven, quotient, rest, less, more]

theorem roundHalfEven_one (num : Nat) : roundHalfEven num 1 = num := by
  simp [roundHalfEven, Nat.mod_one]

/-- Rounding a ratio does not depend on a common factor. -/
theorem nearestCode_mul_right (num den : Nat) {k : Nat} (h : 0 < k) :
    nearestCode (num * k) (den * k) = nearestCode num den := by
  have units : (num * k) <<< unitShift = (num <<< unitShift) * k := by
    simp only [Nat.shiftLeft_eq, Nat.mul_right_comm]
  have scaled (dropped : Nat) : (den * k) <<< dropped = (den <<< dropped) * k := by
    simp only [Nat.shiftLeft_eq, Nat.mul_right_comm]
  simp only [nearestCode, units, Nat.mul_div_mul_right _ _ h, scaled, roundHalfEven_mul_right _ _ h]

theorem nearestCode_zero {den : Nat} (h : 0 < den) : nearestCode 0 den = 0 := by
  have scaled := nearestCode_mul_right 0 1 h
  rw [Nat.zero_mul, Nat.one_mul] at scaled
  rw [scaled]
  decide

/-! ## Decimals -/

/-- A decimal rounds as its ratio on any grid of powers of ten that is fine enough for it. -/
theorem Decimal.nearestCode_eq (d : Decimal) {shift : Nat} (h : 0 ≤ d.exponent + shift) :
    d.nearestCode
      = Number.nearestCode (d.digits * 10 ^ (d.exponent + shift).toNat) (10 ^ shift) := by
  obtain ⟨digits, exponent⟩ := d
  cases exponent with
  | ofNat exponent =>
    have sum : (Int.ofNat exponent + shift).toNat = exponent + shift := by
      simp only [Int.ofNat_eq_natCast]
      omega
    have scaled := nearestCode_mul_right (digits * 10 ^ exponent) 1 (Nat.pow_pos (n := shift)
      (show 0 < 10 by decide))
    rw [Nat.one_mul, Nat.mul_assoc, ← Nat.pow_add] at scaled
    simp only [sum, scaled]
    rfl
  | negSucc exponent =>
    obtain ⟨more, rfl⟩ : ∃ more, shift = exponent + 1 + more := by
      refine ⟨shift - (exponent + 1), ?_⟩
      simp only at h
      omega
    have sum : (Int.negSucc exponent + (exponent + 1 + more : Nat)).toNat = more := by omega
    have scaled := nearestCode_mul_right digits (10 ^ (exponent + 1)) (Nat.pow_pos (n := more)
      (show 0 < 10 by decide))
    rw [← Nat.pow_add] at scaled
    simp only [sum, scaled]
    rfl

/-- A power of ten may stand in the digits or in the exponent. -/
theorem Decimal.nearestCode_mul_pow (digits k : Nat) (exponent : Int) :
    nearestCode ⟨digits * 10 ^ k, exponent⟩ = nearestCode ⟨digits, exponent + k⟩ := by
  have fine : 0 ≤ exponent + (exponent.natAbs : Nat) := by omega
  have fine' : 0 ≤ exponent + k + (exponent.natAbs : Nat) := by omega
  have sum : (exponent + k + (exponent.natAbs : Nat)).toNat
      = k + (exponent + (exponent.natAbs : Nat)).toNat := by omega
  rw [nearestCode_eq ⟨digits * 10 ^ k, exponent⟩ fine,
    nearestCode_eq ⟨digits, exponent + k⟩ fine', sum, Nat.pow_add, Nat.mul_assoc]

theorem Decimal.nearestCode_zero (exponent : Int) : nearestCode ⟨0, exponent⟩ = 0 := by
  have fine : 0 ≤ exponent + (exponent.natAbs : Nat) := by omega
  rw [nearestCode_eq ⟨0, exponent⟩ fine, Nat.zero_mul]
  exact Number.nearestCode_zero (Nat.pow_pos (by decide))

theorem Decimal.nearestCode_trim (d : Decimal) : d.trim.nearestCode = d.nearestCode := by
  fun_induction Decimal.trim d with
  | case1 d zero =>
    obtain ⟨digits, exponent⟩ := d
    obtain rfl : digits = 0 := zero
    rw [nearestCode_zero, nearestCode_zero]
  | case2 d nonzero tenfold ih =>
    obtain ⟨digits, exponent⟩ := d
    have whole : digits / 10 * 10 ^ 1 = digits := by
      simp only at tenfold
      omega
    rw [ih, ← whole, nearestCode_mul_pow, whole]
    rfl
  | case3 d nonzero rest => rfl

/-! ## Units -/

theorem roundHalfEven_whole (num : Nat) {den : Nat} (h : 0 < den) :
    roundHalfEven (num * den) den = num := by
  have scaled := roundHalfEven_mul_right num 1 h
  rwa [Nat.one_mul, roundHalfEven_one] at scaled

/-- A code is the binade of its units, and the units rounded to the digits of that binade. -/
theorem unitsOf_spec (code : Nat) :
    (unitsOf code).log2 - 52 = code / binade - 1 ∧
      ∃ digits, unitsOf code = digits * 2 ^ (code / binade - 1) ∧
        (code / binade - 1) * binade + digits = code := by
  have split : code / binade * binade + code % binade = code := Nat.div_add_mod' code binade
  have below : code % binade < binade := Nat.mod_lt code (by decide)
  have binade_eq : binade = 2 ^ 52 := by decide
  unfold unitsOf
  by_cases small : code < binade
  · rw [if_pos small, Nat.div_eq_of_lt small]
    refine ⟨?_, code, (Nat.mul_one code).symm, Nat.zero_add code⟩
    by_cases zero : code = 0
    · subst zero
      decide
    · have := (Nat.log2_lt zero).2 (binade_eq ▸ small)
      omega
  · rw [if_neg small, Nat.shiftLeft_eq]
    have positive : 1 ≤ code / binade := (Nat.one_le_div_iff (by decide)).2 (by omega)
    obtain ⟨exponent, hexponent⟩ : ∃ exponent, code / binade = exponent + 1 :=
      ⟨code / binade - 1, by omega⟩
    rw [hexponent] at split ⊢
    have lower : 2 ^ (52 + exponent) ≤ (binade + code % binade) * 2 ^ exponent := by
      rw [Nat.pow_add, ← binade_eq]
      exact Nat.mul_le_mul_right _ (Nat.le_add_right _ _)
    have upper : (binade + code % binade) * 2 ^ exponent < 2 ^ (52 + exponent + 1) := by
      rw [Nat.add_right_comm, Nat.pow_add, show 2 ^ (52 + 1) = binade + binade by decide]
      exact Nat.mul_lt_mul_of_pos_right (by omega) (Nat.pow_pos (by decide))
    have nonzero : (binade + code % binade) * 2 ^ exponent ≠ 0 := by
      have := Nat.pow_pos (n := 52 + exponent) (show 0 < 2 by decide)
      omega
    have log := (Nat.log2_eq_iff nonzero).2 ⟨lower, upper⟩
    simp only [Nat.add_sub_cancel]
    rw [Nat.add_mul, Nat.one_mul] at split
    exact ⟨by omega, binade + code % binade, rfl, by omega⟩

/-- A whole number of units rounds to the code it came from. -/
theorem nearestCode_unitsOf {code : Nat} (h : code < infinityCode) :
    nearestCode (unitsOf code) (2 ^ unitShift) = code := by
  obtain ⟨hlog, digits, hunits, hcode⟩ := unitsOf_spec code
  have one : 0 < 2 ^ unitShift := Nat.pow_pos (by decide)
  have rounded : roundHalfEven (unitsOf code <<< unitShift)
      ((2 ^ unitShift) <<< (code / binade - 1)) = digits := by
    rw [Nat.shiftLeft_eq, Nat.shiftLeft_eq, Nat.mul_comm (2 ^ unitShift),
      roundHalfEven_mul_right _ _ one, hunits, roundHalfEven_whole _ (Nat.pow_pos (by decide))]
  have units : unitsOf code <<< unitShift / 2 ^ unitShift = unitsOf code := by
    rw [Nat.shiftLeft_eq, Nat.mul_div_cancel _ one]
  simp only [nearestCode, units, hlog, rounded, hcode]
  exact Nat.min_eq_right (Nat.le_of_lt h)

/-! ## Main statement -/

theorem nearestCode_exactDecimal {code : Nat} (h : code < infinityCode) :
    (exactDecimal code).nearestCode = code := by
  have ten : 10 ^ unitShift = 2 ^ unitShift * 5 ^ unitShift := by rw [← Nat.mul_pow]
  have exponent : gridExponent + unitShift = 0 := by decide
  rw [Decimal.nearestCode_eq (exactDecimal code) (show 0 ≤ gridExponent + unitShift by decide)]
  simp only [exactDecimal, exponent, Int.toNat_zero, Nat.pow_zero, Nat.mul_one]
  rw [ten, Nat.pow_eq, nearestCode_mul_right _ _ (Nat.pow_pos (by decide)), nearestCode_unitsOf h]

theorem nearestCode_neighbour? {tieUp : Nat → Bool} {code dropped : Nat} {exact d : Decimal}
    (h : neighbour? tieUp code exact dropped = some d) : d.nearestCode = code := by
  simp only [neighbour?] at h
  split at h
  · next hlower =>
    split at h
    · next hupper =>
      cases h
      exact hupper.1
    · cases h
      exact hlower
  · split at h
    · next hupper =>
      cases h
      exact hupper
    · cases h

/-- **The shortest decimal of a finite magnitude rounds to it.** -/
theorem nearestCode_shortest (tieUp : Nat → Bool) {code : Nat} (h : code < infinityCode) :
    (shortest tieUp code).nearestCode = code := by
  rw [shortest, Decimal.nearestCode_trim]
  cases hfound : (List.range maxDigits).findSome? fun count =>
      neighbour? tieUp code (exactDecimal code)
        ((Nat.toDigits 10 (exactDecimal code).digits).length - (count + 1)) with
  | none => exact nearestCode_exactDecimal h
  | some d =>
    obtain ⟨count, -, hd⟩ := List.exists_of_findSome?_eq_some hfound
    exact nearestCode_neighbour? hd

end Rulebook.Number
