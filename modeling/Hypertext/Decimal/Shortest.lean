import Hypertext.Decimal.Nearest

/-! # Shortest digits

The decimal with the fewest digits among those that the format reads back as a given number, and
the nearest of these to it. A decimal reads back as the number when it lies between the midpoints to
the two neighbours; the midpoints themselves do when the number has an even number of units. -/

namespace Hypertext.Decimal

/-- The decimals that read back as a number, in quarters of its unit: fractions over `den`. -/
structure ReadBack where
  low : Nat
  value : Nat
  high : Nat
  den : Nat
  closed : Bool

/-- Below the least number of a unit, the neighbour is nearer. -/
def BinaryFormat.readBack (f : BinaryFormat) (units : Nat) (exponent : Int) : ReadBack :=
  let nearer := units = f.leadingUnit
  let scale := Nat.pow 2 (exponent - 2).toNat
  { low := (4 * units - if nearer then 1 else 2) * scale
    value := 4 * units * scale
    high := (4 * units + 2) * scale
    den := Nat.pow 2 (2 - exponent).toNat
    closed := units % 2 == 0 }

/-- A decimal number, `digits * 10 ^ exponent`. -/
structure Scaled where
  digits : Nat
  exponent : Int
deriving DecidableEq, Repr

namespace ReadBack

def holds (r : ReadBack) (d : Scaled) : Bool :=
  let (n, m) := powerOfTen d.exponent
  let num := d.digits * n * r.den
  if r.closed then r.low * m ≤ num && num ≤ r.high * m
  else r.low * m < num && num < r.high * m

/-- The exponent `e` with `10 ^ (e - 1) ≤ value < 10 ^ e`. -/
def magnitude (r : ReadBack) : Int :=
  let guess : Int := (digitCount r.value : Int) - digitCount r.den
  let (n, m) := powerOfTen guess
  if r.den * n ≤ r.value * m then guess + 1 else guess

/-- The two decimals around the value whose last digit stands for `10 ^ e`, the nearer one first;
of two equally near, the greater. -/
def candidates (r : ReadBack) (e : Int) : List Scaled :=
  let (n, m) := powerOfTen e
  let num := r.value * m
  let den := r.den * n
  let below := ⟨num / den, e⟩
  let above := ⟨num / den + 1, e⟩
  if 2 * (num % den) < den then [below, above] else [above, below]

/-- The first decimal that reads back, from `count` digits on with up to `more` digits further. -/
def search (r : ReadBack) (count : Nat) : (more : Nat) → Option Scaled
  | 0 => none
  | more + 1 =>
    match (r.candidates (r.magnitude - count)).find? r.holds with
    | some d => some d
    | none => search r (count + 1) more

end ReadBack

/-- Seventeen digits always tell two numbers of 64 bits apart. -/
def mostDigits : Nat := 17

/-- The shortest decimal that reads back as `units * 2 ^ exponent`. -/
def BinaryFormat.shortest (f : BinaryFormat) (units : Nat) (exponent : Int) : Scaled :=
  if units = 0 then ⟨0, 0⟩
  else
    let r := f.readBack units exponent
    (r.search 1 mostDigits).getD ⟨r.value / r.den, 0⟩

/-! ## Writing -/

/-- How a number is written. There is never an exponent. -/
structure NumberLayout where
  nan : String
  infinity : String
  /-- What a whole number has behind its digits. -/
  wholeEnd : String

/-- The digits with the point where the exponent puts it, and no zeros at the end of a fraction. -/
def Scaled.positional (d : Scaled) (wholeEnd : String) : String :=
  let digits := Nat.toDigits 10 d.digits
  if 0 ≤ d.exponent then
    String.ofList (digits ++ List.replicate d.exponent.toNat '0') ++ wholeEnd
  else
    let places := (-d.exponent).toNat
    let padded := List.replicate (places + 1 - digits.length) '0' ++ digits
    let whole := padded.take (padded.length - places)
    let fraction := (padded.drop (padded.length - places)).reverse.dropWhile (· = '0')
    if fraction.isEmpty then String.ofList whole ++ wholeEnd
    else String.ofList (whole ++ '.' :: fraction.reverse)

def BinaryNumber.text (f : BinaryFormat) (layout : NumberLayout) : BinaryNumber → String
  | .nan => layout.nan
  | .infinite negative => (if negative then "-" else "") ++ layout.infinity
  | .finite negative units exponent =>
    (if negative then "-" else "") ++ (f.shortest units exponent).positional layout.wholeEnd

/-- Plain numbers: whole numbers have no point. -/
def plainLayout : NumberLayout where
  nan := "NaN"
  infinity := "inf"
  wholeEnd := ""

end Hypertext.Decimal
