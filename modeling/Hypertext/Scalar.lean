import Hypertext.Content
import Hypertext.Decimal.Shortest

/-! # Plain values

Truth values, numbers and characters can be given where text is taken. Only as attribute values,
truth values are more than their names. -/

namespace Hypertext

inductive Scalar where
  | boolean (b : Bool)
  | integer (n : Int)
  | float (format : Decimal.BinaryFormat) (x : Decimal.BinaryNumber)
  | char (c : Char)
  | text (s : String)
deriving DecidableEq, Repr

def Scalar.display : Scalar → String
  | boolean b => if b then "true" else "false"
  | integer n => toString n
  | float format x => x.text format Decimal.plainLayout
  | char c => c.toString
  | text s => s

def AttributeValue.ofScalar : Scalar → AttributeValue
  | .boolean b => .flag b
  | s => .text s.display

def Content.ofScalar (s : Scalar) : Content :=
  .text s.display

end Hypertext
