import Rulebook.Json.Value
import Rulebook.Number.Layout

/-!
# Numbers of JSON texts

How a stored text writes a number, and how a number of a JSON text is read. Writing is exact.
Reading is quick: it collects the digits in a 64-bit significand, leaves out the digits that do not
fit, and scales by a power of ten that is itself rounded, with one more rounding for each scaling.
So the number read can differ in its last bit from the one nearest to the text.
-/

namespace Rulebook.Json

open Number

/-! ## Writing -/

/--
The layout of stored numbers: a tie goes to the even digits, exponents from -5 to 15 are written out
with at least one digit after the point.
-/
def numberLayout : Layout :=
  ⟨fun lower => lower % 2 == 1, fun exponent => -5 ≤ exponent && exponent < 16, true⟩

/-- The JSON value of a number; one that is not finite has none of its own. -/
def ofNumber (x : Binary64) : Value :=
  if x.isFinite then .number (numberLayout.numeral x) else .null

/-! ## Reading -/

def significandLimit : Nat := 0xFFFFFFFFFFFFFFFF

/-- The significand with the digits that still fit behind it, and the digits left over. -/
def collect (significand : Nat) : List Char → Nat × List Char
  | [] => (significand, [])
  | c :: rest =>
    let extended := significand * 10 + (c.toNat - '0'.toNat)
    if extended ≤ significandLimit then collect extended rest else (significand, c :: rest)

/-- The largest power of ten that is a finite number. -/
def maxPower : Nat := 308

/-- The code of the number nearest to a power of ten. -/
def powerCode (exponent : Nat) : Nat :=
  nearestCode (Nat.pow 10 exponent) 1

/-- Divides by a power of ten, by the largest one as long as the rest is larger. -/
def scaleDown (code exponent : Nat) : Nat :=
  if exponent ≤ maxPower then quotientCode code (powerCode exponent)
  else if code = 0 then 0
  else scaleDown (quotientCode code (powerCode maxPower)) (exponent - maxPower)
termination_by exponent
decreasing_by
  have : maxPower = 308 := rfl
  omega

/-- Multiplies by a power of ten; `none` beyond the finite numbers. -/
def scaleUp? (code exponent : Nat) : Option Nat :=
  if exponent ≤ maxPower then
    let product := productCode code (powerCode exponent)
    if product < infinityCode then some product else none
  else if code = 0 then some 0 else none

/-- The largest exponent that a numeral may write; beyond it only zero is read. -/
def exponentLimit : Int := 0x7FFFFFFF

/-- The code of the magnitude read from a numeral; `none` beyond the finite numbers. -/
def magnitudeCode? (n : Numeral) : Option Nat :=
  let (significand, wholeRest) := collect 0 n.whole
  let (significand, fractionRest) := collect significand n.fraction
  let written := n.exponent.getD 0
  let code := nearestCode significand 1
  if exponentLimit < written then
    if significand = 0 then some 0 else none
  else if written < -exponentLimit then some 0
  else
    match written + wholeRest.length - (n.fraction.length - fractionRest.length : Nat) with
    | .ofNat exponent => scaleUp? code exponent
    | .negSucc exponent => some (scaleDown code (exponent + 1))

theorem scaleDown_lt (code exponent : Nat) : scaleDown code exponent < signBit := by
  fun_induction scaleDown code exponent with
  | case1 => exact nearestCode_lt _ _
  | case2 => decide
  | case3 _ _ _ _ ih => exact ih

theorem scaleUp?_lt {code exponent result : Nat} (h : scaleUp? code exponent = some result) :
    result < signBit := by
  unfold scaleUp? at h
  split at h
  · simp only at h
    split at h
    · rw [← Option.some.inj h]; exact nearestCode_lt _ _
    · simp at h
  · split at h
    · rw [← Option.some.inj h]; decide
    · simp at h

theorem magnitudeCode?_lt {n : Numeral} {code : Nat} (h : magnitudeCode? n = some code) :
    code < signBit := by
  simp only [magnitudeCode?] at h
  split at h
  · split at h
    · rw [← Option.some.inj h]; decide
    · simp at h
  · split at h
    · rw [← Option.some.inj h]; decide
    · split at h
      · exact scaleUp?_lt h
      · rw [← Option.some.inj h]; exact scaleDown_lt _ _

/-- The number read from a numeral; `none` beyond the finite numbers. -/
def readNumber? (n : Numeral) : Option Binary64 :=
  match h : magnitudeCode? n with
  | some code => some ⟨n.negative, code, magnitudeCode?_lt h⟩
  | none => none

end Rulebook.Json
