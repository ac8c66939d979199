/-! # Binary floating-point numbers

A number of a binary interchange format as an exact value: a whole number of units, where the unit
is a power of two. -/

namespace Hypertext.Decimal

structure BinaryFormat where
  /-- The bits of the fraction field. -/
  fractionBits : Nat
  /-- The bits of the exponent field. -/
  exponentBits : Nat
deriving DecidableEq, Repr

def binary32 : BinaryFormat := ⟨23, 8⟩

def binary64 : BinaryFormat := ⟨52, 11⟩

inductive BinaryNumber where
  | nan
  | infinite (negative : Bool)
  /-- `units * 2 ^ exponent`, where zero has a sign too. -/
  | finite (negative : Bool) (units : Nat) (exponent : Int)
deriving DecidableEq, Repr

namespace BinaryFormat

/-- The largest value of the exponent field; it stands for infinities and what is no number. -/
def fieldMax (f : BinaryFormat) : Nat :=
  Nat.pow 2 f.exponentBits - 1

/-- The exponent of the finest unit. -/
def leastExponent (f : BinaryFormat) : Int :=
  2 - Nat.pow 2 (f.exponentBits - 1) - f.fractionBits

/-- The exponent of the coarsest unit. -/
def greatestExponent (f : BinaryFormat) : Int :=
  Nat.pow 2 (f.exponentBits - 1) - 1 - f.fractionBits

/-- The least number of units that needs no finer unit. -/
def leadingUnit (f : BinaryFormat) : Nat :=
  Nat.pow 2 f.fractionBits

/-- The number that a bit pattern stands for. -/
def decode (f : BinaryFormat) (bits : Nat) : BinaryNumber :=
  let fraction := bits % Nat.pow 2 f.fractionBits
  let field := bits / Nat.pow 2 f.fractionBits % Nat.pow 2 f.exponentBits
  let negative := bits / Nat.pow 2 (f.fractionBits + f.exponentBits) % 2 == 1
  if field = f.fieldMax then
    if fraction = 0 then .infinite negative else .nan
  else if field = 0 then .finite negative fraction f.leastExponent
  else .finite negative (f.leadingUnit + fraction) (f.leastExponent + field - 1)

end BinaryFormat

end Hypertext.Decimal
