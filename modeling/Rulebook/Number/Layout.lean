import Rulebook.Number.Numeral

/-!
# Written numbers

A finite number is written as the shortest decimal that reads back, laid out as a numeral. What a
layout decides besides the digits is collected in one record, so that messages and stored texts each
have one.
-/

namespace Rulebook.Number

/-!
## The shortest decimal that reads back

A finite binary64 magnitude is written with as few digits as still round to it and to no other
magnitude. With one digit, two digits and so on, the two neighbours of the exact value on that
decimal grid are tried by reading them back. Of two neighbours that both read back the nearer one is
taken.
-/

/-- Trailing zeros of the digits moved into the exponent. -/
def Decimal.trim (d : Decimal) : Decimal :=
  if d.digits = 0 then ⟨0, 0⟩
  else if d.digits % 10 = 0 then Decimal.trim ⟨d.digits / 10, d.exponent + 1⟩
  else d
termination_by d.digits
decreasing_by exact Nat.div_lt_self (by omega) (by omega)

/-- A unit is five to the 1074 on the decimal grid with exponent -1074. -/
def gridExponent : Int := -1074

def exactDecimal (code : Nat) : Decimal :=
  ⟨unitsOf code * Nat.pow 5 unitShift, gridExponent⟩

/--
Of the neighbours of an exact value on the grid that drops its last digits, the one that reads back
as the magnitude. `tieUp` decides, by the lower neighbour's digits, whether a tie goes to the upper
one.
-/
def neighbour? (tieUp : Nat → Bool) (code : Nat) (exact : Decimal) (dropped : Nat) :
    Option Decimal :=
  let step := Nat.pow 10 dropped
  let lower : Decimal := ⟨exact.digits / step, exact.exponent + dropped⟩
  let upper : Decimal := ⟨exact.digits / step + 1, exact.exponent + dropped⟩
  let twice := 2 * (exact.digits % step)
  if lower.nearestCode = code then
    if upper.nearestCode = code ∧ (step < twice ∨ twice = step ∧ tieUp lower.digits) then some upper
    else some lower
  else if upper.nearestCode = code then some upper
  else none

/-- The most digits that a shortest decimal needs. -/
def maxDigits : Nat := 17

/-- The shortest decimal that reads back as a finite magnitude, without trailing zeros. -/
def shortest (tieUp : Nat → Bool) (code : Nat) : Decimal :=
  let exact := exactDecimal code
  let size := (Nat.toDigits 10 exact.digits).length
  let found := (List.range maxDigits).findSome? fun count =>
    neighbour? tieUp code exact (size - (count + 1))
  (found.getD exact).trim

/-! ## Layouts -/

structure Layout where
  /-- Of two shortest decimals equally near, whether the upper one is taken, given the digits of the
  lower one. -/
  tieUp : Nat → Bool
  /-- Whether a number is written without exponent, given the exponent of its first digit. -/
  isPlain : Int → Bool
  /-- A whole number written without exponent has a point and a zero. -/
  pointZero : Bool

/-- A decimal with its digits spread around the point. -/
def Decimal.plain (negative pointZero : Bool) (d : Decimal) : Numeral :=
  let digits := Nat.toDigits 10 d.digits
  match d.exponent with
  | .ofNat exponent =>
    ⟨negative, digits ++ List.replicate exponent '0', if pointZero then ['0'] else [], none⟩
  | .negSucc exponent =>
    let places := exponent + 1
    let padded := List.replicate (places + 1 - digits.length) '0' ++ digits
    let wholePlaces := padded.length - places
    ⟨negative, padded.take wholePlaces, padded.drop wholePlaces, none⟩

/-- A decimal with one digit before the point, and an exponent. -/
def Decimal.scientific (negative : Bool) (d : Decimal) : Numeral :=
  let digits := Nat.toDigits 10 d.digits
  ⟨negative, digits.take 1, digits.drop 1, some (d.exponent + (digits.length - 1 : Nat))⟩

def Decimal.leadingExponent (d : Decimal) : Int :=
  d.exponent + ((Nat.toDigits 10 d.digits).length - 1 : Nat)

/-- The numeral of a finite number. -/
def Layout.numeral (layout : Layout) (x : Binary64) : Numeral :=
  let d := shortest layout.tieUp x.code
  if layout.isPlain d.leadingExponent then d.plain x.negative layout.pointZero
  else d.scientific x.negative

end Rulebook.Number
