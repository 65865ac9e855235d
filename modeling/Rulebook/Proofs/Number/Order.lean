import Rulebook.Proofs.Number.ReadBack

/-!
# Rounding keeps the order

A larger ratio rounds to no smaller code (`nearestCode_mono`), so larger codes have more units
(`unitsOf_lt_unitsOf`), and natural numbers below two to the 53 are exact
(`unitsOf_nearestCode_nat`).
-/

namespace Rulebook.Number

/-! ## Half even -/

theorem roundHalfEven_cases (num den : Nat) :
    (2 * (num % den) < den ∧ roundHalfEven num den = num / den) ∨
    (den < 2 * (num % den) ∧ roundHalfEven num den = num / den + 1) ∨
    (2 * (num % den) = den ∧ roundHalfEven num den = num / den + num / den % 2) := by
  unfold roundHalfEven
  dsimp only
  by_cases down : 2 * (num % den) < den
  · exact .inl ⟨down, if_pos down⟩
  · rw [if_neg down]
    by_cases up : den < 2 * (num % den)
    · exact .inr (.inl ⟨up, if_pos up⟩)
    · exact .inr (.inr ⟨by omega, if_neg up⟩)

theorem roundHalfEven_mono {num num' : Nat} (h : num ≤ num') (den : Nat) :
    roundHalfEven num den ≤ roundHalfEven num' den := by
  have quotient : num / den ≤ num' / den := Nat.div_le_div_right h
  have rest : num / den = num' / den → num % den ≤ num' % den := by
    intro same
    have split := Nat.div_add_mod num den
    have split' := Nat.div_add_mod num' den
    rw [same] at split
    omega
  have cases := roundHalfEven_cases num den
  have cases' := roundHalfEven_cases num' den
  rcases Nat.lt_or_eq_of_le quotient with less | same
  · omega
  · have := rest same
    omega

theorem roundHalfEven_le {num den k : Nat} (hden : 0 < den) (h : num ≤ k * den) :
    roundHalfEven num den ≤ k := by
  rw [← roundHalfEven_whole k hden]
  exact roundHalfEven_mono h den

theorem le_roundHalfEven {num den k : Nat} (hden : 0 < den) (h : k * den ≤ num) :
    k ≤ roundHalfEven num den := by
  rw [← roundHalfEven_whole k hden]
  exact roundHalfEven_mono h den

/-! ## Codes -/

/-- The binary digits of a ratio that rounding takes away. -/
def droppedBits (units den : Nat) : Nat :=
  (units / den).log2 - 52

/-- What is left has at most 53 binary digits, or is two to the 53. -/
theorem roundHalfEven_dropped_le (units : Nat) {den : Nat} (hden : 0 < den) :
    roundHalfEven units (den <<< droppedBits units den) ≤ 2 ^ 53 := by
  have size : units / den < 2 ^ (droppedBits units den + 53) := by
    refine Nat.lt_of_lt_of_le Nat.lt_log2_self (Nat.pow_le_pow_right (by decide) ?_)
    rw [droppedBits]
    omega
  rw [Nat.shiftLeft_eq]
  apply roundHalfEven_le (Nat.mul_pos hden (Nat.two_pow_pos _))
  rw [Nat.div_lt_iff_lt_mul hden] at size
  calc units ≤ 2 ^ (droppedBits units den + 53) * den := Nat.le_of_lt size
    _ = 2 ^ 53 * (den * 2 ^ droppedBits units den) := by
      rw [Nat.pow_add, Nat.mul_comm (2 ^ droppedBits units den), Nat.mul_assoc,
        Nat.mul_comm (2 ^ droppedBits units den)]

/-- Where digits are taken away, all 53 are left. -/
theorem le_roundHalfEven_dropped {units den : Nat} (hden : 0 < den)
    (h : 0 < droppedBits units den) :
    2 ^ 52 ≤ roundHalfEven units (den <<< droppedBits units den) := by
  have nonzero : units / den ≠ 0 := by
    intro zero
    rw [droppedBits, zero] at h
    exact absurd h (by decide)
  have size : 2 ^ (droppedBits units den + 52) ≤ units / den := by
    refine Nat.le_trans (Nat.pow_le_pow_right (by decide) ?_) (Nat.log2_self_le nonzero)
    rw [droppedBits] at h ⊢
    omega
  rw [Nat.shiftLeft_eq]
  apply le_roundHalfEven (Nat.mul_pos hden (Nat.two_pow_pos _))
  rw [Nat.le_div_iff_mul_le hden] at size
  calc 2 ^ 52 * (den * 2 ^ droppedBits units den)
      = 2 ^ (droppedBits units den + 52) * den := by
        rw [Nat.pow_add, Nat.mul_comm (2 ^ droppedBits units den), Nat.mul_assoc,
          Nat.mul_comm (2 ^ droppedBits units den)]
    _ ≤ units := size

theorem nearestCode_eq_min (num den : Nat) :
    nearestCode num den = min infinityCode (droppedBits (num <<< unitShift) den * binade
      + roundHalfEven (num <<< unitShift) (den <<< droppedBits (num <<< unitShift) den)) := rfl

theorem log2_mono {n m : Nat} (h : n ≤ m) : n.log2 ≤ m.log2 := by
  by_cases zero : n = 0
  · subst zero
    exact Nat.zero_le _
  · rw [Nat.le_log2 (by omega)]
    exact Nat.le_trans (Nat.log2_self_le zero) h

theorem nearestCode_le_nearestCode {num num' den : Nat} (hden : 0 < den) (h : num ≤ num') :
    nearestCode num den ≤ nearestCode num' den := by
  rw [nearestCode_eq_min, nearestCode_eq_min]
  have hunits : num <<< unitShift ≤ num' <<< unitShift := by
    rw [Nat.shiftLeft_eq, Nat.shiftLeft_eq]
    exact Nat.mul_le_mul_right _ h
  generalize num <<< unitShift = units at *
  generalize num' <<< unitShift = units' at *
  have dropped : droppedBits units den ≤ droppedBits units' den :=
    Nat.sub_le_sub_right (log2_mono (Nat.div_le_div_right hunits)) 52
  refine Nat.le_min.2 ⟨Nat.min_le_left _ _, Nat.le_trans (Nat.min_le_right _ _) ?_⟩
  rcases Nat.lt_or_eq_of_le dropped with less | same
  · -- The smaller ratio lies in a lower binade, or carries into this one at most.
    have low := roundHalfEven_dropped_le units hden
    have high := le_roundHalfEven_dropped hden (Nat.zero_lt_of_lt less)
    have step : (droppedBits units den + 1) * binade ≤ droppedBits units' den * binade :=
      Nat.mul_le_mul_right _ less
    have whole : 2 ^ 53 = 2 * binade := by decide
    have half : 2 ^ 52 = binade := by decide
    rw [Nat.add_mul] at step
    omega
  · rw [same]
    exact Nat.add_le_add_left (roundHalfEven_mono hunits _) _

/-- **A larger ratio rounds to no smaller code.** -/
theorem nearestCode_mono {num num' den den' : Nat} (hden : 0 < den) (hden' : 0 < den')
    (h : num * den' ≤ num' * den) : nearestCode num den ≤ nearestCode num' den' := by
  rw [← nearestCode_mul_right num den hden', ← nearestCode_mul_right num' den' hden,
    Nat.mul_comm den' den]
  exact nearestCode_le_nearestCode (Nat.mul_pos hden hden') h

/-- Larger finite codes have more units, since each is the rounding of its own units. -/
theorem unitsOf_lt_unitsOf {a b : Nat} (hb : b < infinityCode) (h : a < b) :
    unitsOf a < unitsOf b := by
  refine Nat.lt_of_not_le fun most => ?_
  have one : 0 < 2 ^ unitShift := Nat.two_pow_pos _
  have codes := nearestCode_mono one one (Nat.mul_le_mul_right (2 ^ unitShift) most)
  rw [nearestCode_unitsOf hb, nearestCode_unitsOf (Nat.lt_trans h hb)] at codes
  exact absurd h (Nat.not_lt_of_le codes)

theorem unitsOf_mono {a b : Nat} (hb : b < infinityCode) (h : a ≤ b) : unitsOf a ≤ unitsOf b := by
  rcases Nat.lt_or_eq_of_le h with less | same
  · exact Nat.le_of_lt (unitsOf_lt_unitsOf hb less)
  · exact Nat.le_of_eq (congrArg unitsOf same)

/-! ## Exact numbers -/

/-- The units of a code, by the digits and the binade that it is made of. -/
theorem unitsOf_digits (dropped : Nat) {digits : Nat} (low : 2 ^ 52 ≤ digits)
    (high : digits < 2 ^ 53) : unitsOf (dropped * binade + digits) = digits * 2 ^ dropped := by
  have half : binade = 2 ^ 52 := by decide
  obtain ⟨rest, rfl⟩ : ∃ rest, digits = binade + rest := ⟨digits - binade, by omega⟩
  have small : rest < binade := by omega
  have code : dropped * binade + (binade + rest) = rest + binade * (dropped + 1) := by
    rw [Nat.mul_add, Nat.mul_comm]
    omega
  have large : ¬ rest + binade * (dropped + 1) < binade := by
    rw [Nat.mul_add]
    omega
  rw [code, unitsOf, if_neg large, Nat.add_mul_mod_self_left, Nat.mod_eq_of_lt small,
    Nat.add_mul_div_left _ _ (by decide), Nat.div_eq_of_lt small, Nat.zero_add,
    Nat.add_sub_cancel, Nat.shiftLeft_eq]

/-- A whole number of units rounds to a code of that many units. -/
theorem nearestCode_of_units {num den code : Nat} (h : num * 2 ^ unitShift = unitsOf code * den)
    (finite : code < infinityCode) (hden : 0 < den) : nearestCode num den = code := by
  rw [← nearestCode_mul_right num den (k := 2 ^ unitShift) (Nat.two_pow_pos _), h,
    Nat.mul_comm den, nearestCode_mul_right _ _ hden, nearestCode_unitsOf finite]

/-- A natural number of at most 53 binary digits is its own rounding. -/
theorem unitsOf_nearestCode_nat {n : Nat} (h : n < 2 ^ 53) :
    unitsOf (nearestCode n 1) = n * 2 ^ unitShift := by
  by_cases zero : n = 0
  · subst zero
    rw [nearestCode_zero (by decide), Nat.zero_mul]
    rfl
  · have size : n.log2 < 53 := (Nat.log2_lt zero).2 h
    have low : 2 ^ 52 ≤ n * 2 ^ (52 - n.log2) := by
      calc 2 ^ 52 = 2 ^ n.log2 * 2 ^ (52 - n.log2) := by
            rw [← Nat.pow_add]
            congr 1
            omega
        _ ≤ n * 2 ^ (52 - n.log2) := Nat.mul_le_mul_right _ (Nat.log2_self_le zero)
    have high : n * 2 ^ (52 - n.log2) < 2 ^ 53 := by
      calc n * 2 ^ (52 - n.log2) < 2 ^ (n.log2 + 1) * 2 ^ (52 - n.log2) :=
            Nat.mul_lt_mul_of_pos_right Nat.lt_log2_self (Nat.two_pow_pos _)
        _ = 2 ^ 53 := by
            rw [← Nat.pow_add]
            congr 1
            omega
    have units : unitsOf ((n.log2 + 1022) * binade + n * 2 ^ (52 - n.log2))
        = n * 2 ^ unitShift := by
      have shift : 52 - n.log2 + (n.log2 + 1022) = unitShift := by
        rw [unitShift]
        omega
      rw [unitsOf_digits _ low high, Nat.mul_assoc, ← Nat.pow_add, shift]
    have finite : (n.log2 + 1022) * binade + n * 2 ^ (52 - n.log2) < infinityCode := by
      have most : (n.log2 + 1022) * binade ≤ 1074 * binade := Nat.mul_le_mul_right _ (by omega)
      have room : 1074 * binade + 2 ^ 53 < infinityCode := by decide
      omega
    rw [nearestCode_of_units (by rw [units, Nat.mul_one]) finite (by decide), units]

end Rulebook.Number
