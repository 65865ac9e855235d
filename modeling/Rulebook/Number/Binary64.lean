/-!
# Binary64 numbers

The numbers of the rule language: the IEEE 754 binary64 values. A number is its sign and its
magnitude's code, the 63 bits below the sign bit read as a natural number. Codes are ordered as the
magnitudes are, so comparing and rounding work on codes.
-/

namespace Rulebook.Number

def signBit : Nat := 0x8000000000000000

/-- The code of the infinite magnitude; the codes above it mean "not a number". -/
def infinityCode : Nat := 0x7FF0000000000000

/-- How many codes share one exponent. -/
def binade : Nat := 0x10000000000000

structure Binary64 where
  negative : Bool
  /-- The bits below the sign bit. -/
  code : Nat
  code_lt : code < signBit
  deriving DecidableEq

namespace Binary64

def ofBits (bits : Nat) : Binary64 where
  negative := bits / signBit % 2 == 1
  code := bits % signBit
  code_lt := Nat.mod_lt _ (by decide)

def toBits (x : Binary64) : Nat :=
  (if x.negative then signBit else 0) + x.code

@[simp] theorem ofBits_toBits (x : Binary64) : ofBits x.toBits = x := by
  obtain ⟨negative, code, code_lt⟩ := x
  simp only [ofBits, Binary64.mk.injEq]
  unfold signBit at code_lt
  cases negative
  · simp only [toBits, signBit, Bool.false_eq_true, ↓reduceIte, Nat.zero_add]
    exact ⟨by rw [Nat.div_eq_of_lt code_lt]; rfl, Nat.mod_eq_of_lt code_lt⟩
  · simp only [toBits, signBit, ↓reduceIte]
    exact ⟨by rw [beq_iff_eq]; omega, by omega⟩

/-- The number is neither infinite nor "not a number". -/
def isFinite (x : Binary64) : Bool :=
  x.code < infinityCode

def isNaN (x : Binary64) : Bool :=
  infinityCode < x.code

/-- A key by which numbers are ordered; the two zeros share theirs. -/
def rank (x : Binary64) : Int :=
  if x.negative then -(x.code : Int) else x.code

/-- How two numbers compare; "not a number" compares with nothing. -/
def order? (x y : Binary64) : Option Ordering :=
  if x.isNaN || y.isNaN then none else some (compare x.rank y.rank)

end Binary64

/-!
## Exact magnitudes

Every finite magnitude is a whole number of units, a unit being the smallest positive magnitude:
there are 1 <<< 1074 units to one.
-/

/-- The power of two by which a unit goes into one. -/
def unitShift : Nat := 1074

/-- The units of a finite magnitude. -/
def unitsOf (code : Nat) : Nat :=
  if code < binade then code
  else (binade + code % binade) <<< (code / binade - 1)

/-!
## Rounding

The nearest magnitude of a ratio of natural numbers, half way cases going to the even code.
-/

/-- The nearest natural number to a ratio; a half goes to the even neighbour. -/
def roundHalfEven (num den : Nat) : Nat :=
  let quotient := num / den
  let rest := 2 * (num % den)
  if rest < den then quotient
  else if den < rest then quotient + 1
  else quotient + quotient % 2

/--
The code of the nearest magnitude to a ratio. In units the ratio has some number of binary digits;
all but 53 of them are rounded away. The rounded digits added to the code of the binade's start give
the code, also where they carry into the next binade.
-/
def nearestCode (num den : Nat) : Nat :=
  let units := num <<< unitShift
  let dropped := (units / den).log2 - 52
  min infinityCode (dropped * binade + roundHalfEven units (den <<< dropped))

theorem nearestCode_lt (num den : Nat) : nearestCode num den < signBit :=
  Nat.lt_of_le_of_lt (Nat.min_le_left _ _) (by decide)

/-- The code of the rounded product of two finite magnitudes. -/
def productCode (a b : Nat) : Nat :=
  nearestCode (unitsOf a * unitsOf b) (1 <<< (2 * unitShift))

/-- The code of the rounded quotient of two finite magnitudes. -/
def quotientCode (a b : Nat) : Nat :=
  nearestCode (unitsOf a) (unitsOf b)

end Rulebook.Number
