import Hypertext.Decimal.Binary

/-! # The nearest binary number

The number of a binary format that lies nearest to a decimal one; of two that lie equally near, the
one with an even number of units. -/

namespace Hypertext.Decimal

/-- How many decimal digits a number has. -/
def digitCount (n : Nat) : Nat :=
  (Nat.toDigits 10 n).length

/-- The quotient rounded to a whole number, a half to the even neighbour. -/
def roundHalfEven (num den : Nat) : Nat :=
  let q := num / den
  let r := num % den
  if 2 * r < den then q
  else if den < 2 * r then q + 1
  else q + q % 2

/-- `10 ^ e` as a fraction. -/
def powerOfTen (e : Int) : Nat × Nat :=
  if 0 ≤ e then (Nat.pow 10 e.toNat, 1) else (1, Nat.pow 10 (-e).toNat)

/-- The quotient `num / den`, which is not zero, in units of `2 ^ e`. -/
def inUnits (num den : Nat) (e : Int) : Nat × Nat :=
  if 0 ≤ e then (num, den * Nat.pow 2 e.toNat) else (num * Nat.pow 2 (-e).toNat, den)

namespace BinaryFormat

/-- The nearest number to the quotient, which is not zero; none if that lies beyond the largest. -/
def ofQuotient (f : BinaryFormat) (negative : Bool) (num den : Nat) : BinaryNumber :=
  let guess : Int := (num.log2 : Int) - den.log2 - (f.fractionBits + 1)
  let (n, d) := inUnits num den guess
  let fitting := if n / d < 2 * f.leadingUnit then guess else guess + 1
  let exponent := max fitting f.leastExponent
  let (n, d) := inUnits num den exponent
  let units := roundHalfEven n d
  let (units, exponent) :=
    if units = 2 * f.leadingUnit then (f.leadingUnit, exponent + 1) else (units, exponent)
  if f.greatestExponent < exponent then .infinite negative
  else .finite negative units exponent

/-- The nearest number to `digits * 10 ^ e`. Exponents far outside the format are settled by the
number of digits. -/
def ofDecimal (f : BinaryFormat) (negative : Bool) (digits : Nat) (e : Int) : BinaryNumber :=
  let magnitude := (digitCount digits : Int) + e
  if digits = 0 then .finite negative 0 f.leastExponent
  else if (f.greatestExponent + f.fractionBits + 2) < magnitude then .infinite negative
  else if magnitude < f.leastExponent - 1 then .finite negative 0 f.leastExponent
  else
    let (n, d) := powerOfTen e
    f.ofQuotient negative (digits * n) d

end BinaryFormat

end Hypertext.Decimal
