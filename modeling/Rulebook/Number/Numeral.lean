import Rulebook.Number.Binary64

/-!
# Numerals

Numbers as they are written, in rules, in messages and in JSON texts: a sign, digits before and
after a point, and a decimal exponent. A numeral denotes a decimal number exactly, and through it
the nearest binary64 number.
-/

namespace Rulebook.Number

/-- The decimal number `digits` times ten to the `exponent`. -/
structure Decimal where
  digits : Nat
  exponent : Int
  deriving DecidableEq

/-- The code of the nearest binary64 magnitude. -/
def Decimal.nearestCode (d : Decimal) : Nat :=
  match d.exponent with
  | .ofNat exponent => Number.nearestCode (d.digits * Nat.pow 10 exponent) 1
  | .negSucc exponent => Number.nearestCode d.digits (Nat.pow 10 (exponent + 1))

theorem Decimal.nearestCode_lt (d : Decimal) : d.nearestCode < signBit := by
  unfold Decimal.nearestCode
  split <;> exact Number.nearestCode_lt _ _

structure Numeral where
  negative : Bool
  whole : List Char
  /-- The digits after the point; with none there is no point either. -/
  fraction : List Char
  exponent : Option Int
  deriving DecidableEq

namespace Numeral

/-- The decimal number that the numeral denotes, the sign left out. -/
def decimal (n : Numeral) : Decimal :=
  ⟨Nat.ofDigitChars 10 (n.whole ++ n.fraction) 0, n.exponent.getD 0 - n.fraction.length⟩

def nearest (n : Numeral) : Binary64 :=
  ⟨n.negative, n.decimal.nearestCode, n.decimal.nearestCode_lt⟩

/-- The written form of an exponent: its sign is always written. -/
def exponentChars : Int → List Char
  | .ofNat exponent => 'e' :: '+' :: Nat.toDigits 10 exponent
  | .negSucc exponent => 'e' :: '-' :: Nat.toDigits 10 (exponent + 1)

def toChars (n : Numeral) : List Char :=
  (if n.negative then ['-'] else []) ++ n.whole
    ++ (if n.fraction.isEmpty then [] else '.' :: n.fraction)
    ++ (n.exponent.map exponentChars).getD []

/--
The numeral of a text that is a minus sign or nothing, digits, and a point with further digits or
nothing.
-/
def ofPlainChars (text : List Char) : Numeral :=
  let (negative, unsigned) := match text with
    | '-' :: unsigned => (true, unsigned)
    | unsigned => (false, unsigned)
  ⟨negative, unsigned.takeWhile (· != '.'), (unsigned.dropWhile (· != '.')).drop 1, none⟩

end Numeral

end Rulebook.Number
