import Mathlib.Data.Int.ConditionallyCompleteOrder
import Mathlib.Order.ConditionallyCompleteLattice.Indexed
import Rulebook.Proofs.Number.Order

/-!
# Comparing numbers exactly

Numbers are compared by their ranks, which are made of their codes. That is the order of their exact
values: a finite number is a whole number of units, the infinite ones lie below and above all of
these, and exact values grow with the ranks (`strictMonoOn_countOfRank`). So the outcome of a
comparison says how the values stand, and "not a number" compares with nothing
(`order?_eq_some_lt_iff`, `order?_eq_some_eq_iff`).
-/

namespace Rulebook.Number

/-! ## Exact values -/

namespace Binary64

/--
The exact value of a number, counted in units, of which there are two to the 1074 to one. For "not a
number" the count means nothing.
-/
def count (x : Binary64) : WithBot (WithTop ℤ) :=
  if x.isFinite then
    (((if x.negative then -(unitsOf x.code : ℤ) else unitsOf x.code : ℤ) : WithTop ℤ) :
      WithBot (WithTop ℤ))
  else if x.negative then ⊥ else ⊤

/-- Both are numbers, and the value of the first one is less. -/
def Less (x y : Binary64) : Prop :=
  x.isNaN = false ∧ y.isNaN = false ∧ x.count < y.count

/-- Both are numbers, and they have one value, as the two zeros have. -/
def Same (x y : Binary64) : Prop :=
  x.isNaN = false ∧ y.isNaN = false ∧ x.count = y.count

end Binary64

/-! ## Values grow with ranks -/

/-- The units of a finite rank, with its sign. -/
def signedUnits : ℤ → ℤ
  | .ofNat code => unitsOf code
  | .negSucc code => -unitsOf (code + 1)

/-- The exact value of a rank. -/
def countOfRank (rank : ℤ) : WithBot (WithTop ℤ) :=
  if rank.natAbs < infinityCode then ((signedUnits rank : WithTop ℤ) : WithBot (WithTop ℤ))
  else if rank < 0 then ⊥ else ⊤

theorem signedUnits_lt_signedUnits {a b : ℤ} (ha : a.natAbs < infinityCode)
    (hb : b.natAbs < infinityCode) (h : a < b) : signedUnits a < signedUnits b := by
  cases a with
  | ofNat a =>
    cases b with
    | ofNat b =>
      have units := unitsOf_lt_unitsOf hb (Int.ofNat_lt.1 h)
      exact Int.ofNat_lt.2 units
    | negSucc b =>
      have below : (a : ℤ) < 0 := h.trans (Int.negSucc_lt_zero b)
      exact absurd below (Int.natCast_nonneg a).not_gt
  | negSucc a =>
    have positive : unitsOf 0 < unitsOf (a + 1) := unitsOf_lt_unitsOf ha (Nat.succ_pos a)
    cases b with
    | ofNat b =>
      rw [signedUnits, signedUnits]
      omega
    | negSucc b =>
      have units : unitsOf (b + 1) < unitsOf (a + 1) := unitsOf_lt_unitsOf ha (by omega)
      rw [signedUnits, signedUnits]
      omega

theorem strictMonoOn_countOfRank :
    StrictMonoOn countOfRank { rank | rank.natAbs ≤ infinityCode } := by
  intro a ha b hb h
  have ha : a.natAbs ≤ infinityCode := ha
  have hb : b.natAbs ≤ infinityCode := hb
  unfold countOfRank
  by_cases finite : a.natAbs < infinityCode
  · rw [if_pos finite]
    by_cases finite' : b.natAbs < infinityCode
    · rw [if_pos finite']
      exact WithBot.coe_lt_coe.2
        (WithTop.coe_lt_coe.2 (signedUnits_lt_signedUnits finite finite' h))
    · rw [if_neg finite', if_neg (by omega)]
      exact WithBot.coe_lt_coe.2 (WithTop.coe_lt_top _)
  · rw [if_neg finite, if_pos (by omega)]
    by_cases finite' : b.natAbs < infinityCode
    · rw [if_pos finite']
      exact WithBot.bot_lt_coe _
    · rw [if_neg finite', if_neg (by omega)]
      exact bot_lt_top

namespace Binary64

theorem natAbs_rank (x : Binary64) : x.rank.natAbs = x.code := by
  unfold rank
  split <;> omega

theorem count_eq_countOfRank (x : Binary64) : x.count = countOfRank x.rank := by
  unfold count countOfRank
  rw [natAbs_rank]
  by_cases finite : x.code < infinityCode
  · rw [if_pos (show x.isFinite = true from decide_eq_true finite), if_pos finite]
    congr 2
    unfold rank
    cases x.negative with
    | false => rfl
    | true => cases x.code <;> rfl
  · have nonzero : x.code ≠ 0 := by
      rintro zero
      rw [zero] at finite
      exact finite (by decide)
    rw [if_neg (by simpa [isFinite] using finite), if_neg finite]
    unfold rank
    cases x.negative with
    | false => simp
    | true => simp [Nat.pos_of_ne_zero nonzero]

/-! ## Outcomes of comparisons -/

variable {x y : Binary64}

theorem rank_mem_of_isNaN_eq_false (h : x.isNaN = false) : x.rank.natAbs ≤ infinityCode := by
  rw [natAbs_rank]
  simpa [isNaN] using h

theorem order?_eq_some_iff {ordering : Ordering} :
    x.order? y = some ordering ↔
      x.isNaN = false ∧ y.isNaN = false ∧ compare x.rank y.rank = ordering := by
  unfold order?
  cases x.isNaN with
  | true => simp
  | false => cases y.isNaN <;> simp

theorem order?_eq_some_lt_iff : x.order? y = some .lt ↔ x.Less y := by
  rw [order?_eq_some_iff, Less]
  refine and_congr_right fun hx => and_congr_right fun hy => ?_
  rw [count_eq_countOfRank, count_eq_countOfRank, compare_lt_iff_lt,
    strictMonoOn_countOfRank.lt_iff_lt (rank_mem_of_isNaN_eq_false hx)
      (rank_mem_of_isNaN_eq_false hy)]

theorem order?_eq_some_gt_iff : x.order? y = some .gt ↔ y.Less x := by
  rw [← order?_eq_some_lt_iff, order?_eq_some_iff, order?_eq_some_iff, compare_gt_iff_gt,
    compare_lt_iff_lt, and_left_comm]

theorem order?_eq_some_eq_iff : x.order? y = some .eq ↔ x.Same y := by
  rw [order?_eq_some_iff, Same]
  refine and_congr_right fun hx => and_congr_right fun hy => ?_
  rw [count_eq_countOfRank, count_eq_countOfRank, compare_eq_iff_eq,
    strictMonoOn_countOfRank.eq_iff_eq (rank_mem_of_isNaN_eq_false hx)
      (rank_mem_of_isNaN_eq_false hy)]

instance (x y : Binary64) : Decidable (x.Less y) :=
  decidable_of_iff _ order?_eq_some_lt_iff

instance (x y : Binary64) : Decidable (x.Same y) :=
  decidable_of_iff _ order?_eq_some_eq_iff

end Binary64

end Rulebook.Number
