import Hypertext.Decimal.Binary

/-! # Values

A table keeps its entries in the order of the document. -/

namespace Hypertext.Toml

structure Date where
  year : Nat
  month : Nat
  day : Nat
deriving DecidableEq, Repr

structure Time where
  hour : Nat
  minute : Nat
  second : Nat
  nanosecond : Nat
deriving DecidableEq, Repr

inductive Offset where
  /-- Universal time itself. -/
  | zulu
  | minutes (ahead : Int)
deriving DecidableEq, Repr

/-- A date, a time of day, or both, and then perhaps with an offset from universal time. -/
structure Datetime where
  date : Option Date := none
  time : Option Time := none
  offset : Option Offset := none
deriving DecidableEq, Repr

inductive Value where
  | string (text : String)
  | integer (n : Int)
  | float (x : Decimal.BinaryNumber)
  | boolean (b : Bool)
  | datetime (d : Datetime)
  | array (items : List Value)
  | table (entries : List (String × Value))

namespace Value

/-- The key under which a table stands for a date or time. -/
def datetimeKey : String := "$__toml_private_datetime"

def isDatetime : Value → Bool
  | datetime _ => true
  | _ => false

end Value

end Hypertext.Toml
