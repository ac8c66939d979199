import Hypertext.Decimal.Shortest
import Hypertext.Toml.Standard.Reader

/-! # Numbers

Whole numbers of 64 bits with a sign, in four bases, and binary numbers of 64 bits. An underscore
may stand between two digits. -/

namespace Hypertext.Toml

open Reader Decimal

/-- Digits of a class, the first of them given, without their underscores. -/
def separatedDigits (isDigit : Char → Bool) : List Char → List Char × List Char
  | '_' :: d :: cs =>
    if isDigit d then
      let (ds, rest) := separatedDigits isDigit cs
      (d :: ds, rest)
    else ([], '_' :: d :: cs)
  | d :: cs =>
    if isDigit d then
      let (ds, rest) := separatedDigits isDigit cs
      (d :: ds, rest)
    else ([], d :: cs)
  | [] => ([], [])

/-- One digit or more. -/
def digitRun (isDigit : Char → Bool) : Reader (List Char) := do
  let first ← satisfy isDigit
  let others ← fun cs => some (separatedDigits isDigit cs)
  return first :: others

/-- Decimal digits; a zero in front stands alone. -/
def decimalRun : Reader (List Char) := do
  if ← accept '0' then return ['0'] else digitRun Char.isDigit

/-- A sign, if there is one: true is minus. -/
def sign : Reader Bool := do
  if ← accept '-' then return true
  discard (accept '+')
  return false

def digitValue (c : Char) : Nat :=
  if c.isDigit then c.toNat - '0'.toNat else c.toLower.toNat - 'a'.toNat + 10

def isHexDigit (c : Char) : Bool :=
  c.isDigit || ('a' ≤ c && c ≤ 'f') || ('A' ≤ c && c ≤ 'F')

def isOctalDigit (c : Char) : Bool :=
  '0' ≤ c && c ≤ '7'

def isBinaryDigit (c : Char) : Bool :=
  c == '0' || c == '1'

/-- The number that digits write in a base. -/
def ofDigits (base : Nat) (ds : List Char) : Nat :=
  ds.foldl (fun n d => n * base + digitValue d) 0

/-- Digits behind the mark of their base, without a sign. -/
def based (mark : String) (base : Nat) (isDigit : Char → Bool) : Reader Int := do
  literal mark
  return ofDigits base (← digitRun isDigit)

def decimalInteger : Reader Int := do
  let negative ← sign
  let n := ofDigits 10 (← decimalRun)
  return if negative then -n else n

/-- A whole number; it must be one of 64 bits. -/
def integer : Reader Int := do
  let n ← based "0x" 16 isHexDigit <|> based "0o" 8 isOctalDigit <|>
    based "0b" 2 isBinaryDigit <|> decimalInteger
  guard (-0x8000000000000000 ≤ n ∧ n < 0x8000000000000000)
  return n

def specialFloat (negative : Bool) : Reader BinaryNumber :=
  (literal "inf" *> pure (.infinite negative)) <|> (literal "nan" *> pure .nan)

def exponentPart : Reader Int := do
  discard (satisfy fun c => c == 'e' || c == 'E')
  let negative ← sign
  let n := ofDigits 10 (← digitRun Char.isDigit)
  return if negative then -n else n

/-- A number with a fraction, an exponent or both. A positive one must not lie beyond the largest
number of the format, a negative one then stands for infinity. -/
def decimalFloat (negative : Bool) : Reader BinaryNumber := do
  let whole ← decimalRun
  let fraction ← optional (char '.' *> digitRun Char.isDigit)
  let exponent ← optional exponentPart
  guard (fraction.isSome ∨ exponent.isSome)
  let fraction := fraction.getD []
  let x := binary64.ofDecimal negative (ofDigits 10 (whole ++ fraction))
    (exponent.getD 0 - fraction.length)
  guard (x ≠ .infinite false)
  return x

def float : Reader BinaryNumber := do
  let negative ← sign
  decimalFloat negative <|> specialFloat negative

/-- Numbers as values: whole ones have a point too, so that they read back as they were. -/
def floatLayout : NumberLayout where
  nan := "nan"
  infinity := "inf"
  wholeEnd := ".0"

def floatText (x : BinaryNumber) : String :=
  x.text binary64 floatLayout

end Hypertext.Toml
