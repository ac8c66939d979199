import Hypertext.Toml.Standard.Reader
import Hypertext.Toml.Value

/-! # Reading and writing dates and times -/

namespace Hypertext.Toml

def isLeapYear (year : Nat) : Bool :=
  year % 4 == 0 && (year % 100 != 0 || year % 400 == 0)

def daysIn (year month : Nat) : Nat :=
  match month with
  | 2 => if isLeapYear year then 29 else 28
  | 4 | 6 | 9 | 11 => 30
  | _ => 31

/-! ## Reading -/

open Reader

/-- A date of the calendar. -/
def Date.read : Reader Date := do
  let year ← digits 4
  char '-'
  let month ← digits 2
  char '-'
  let day ← digits 2
  guard (1 ≤ month ∧ month ≤ 12 ∧ 1 ≤ day ∧ day ≤ daysIn year month)
  return { year, month, day }

/-- The digits of a fraction of a second, as nanoseconds. Digits behind the ninth are dropped. -/
def nanoseconds (fraction : List Char) : Nat :=
  Nat.ofDigitChars 10 ((fraction ++ List.replicate 9 '0').take 9) 0

/-- A time with its seconds; the last second of a minute may be a leap second. -/
def Time.read : Reader Time := do
  let hour ← digits 2
  char ':'
  let minute ← digits 2
  char ':'
  let second ← digits 2
  guard (hour ≤ 23 ∧ minute ≤ 59 ∧ second ≤ 60)
  if ← accept '.' then
    let fraction ← takeWhile Char.isDigit
    guard (fraction ≠ [])
    return { hour, minute, second, nanosecond := nanoseconds fraction }
  else
    return { hour, minute, second, nanosecond := 0 }

def Offset.read : Reader Offset := do
  if (← optional (satisfy fun c => c == 'Z' || c == 'z')).isSome then return .zulu
  let sign ← satisfy fun c => c == '+' || c == '-'
  let hour ← digits 2
  char ':'
  let minute ← digits 2
  guard (hour ≤ 23 ∧ minute ≤ 59)
  let ahead : Nat := hour * 60 + minute
  return .minutes (if sign = '-' then -ahead else ahead)

/-- What may stand between a date and its time. -/
def isDateTimeMark (c : Char) : Bool :=
  c == 'T' || c == 't' || c == ' '

/-- A time follows its date behind a mark, and only then there may be an offset. -/
def Datetime.read : Reader Datetime := do
  match ← optional Date.read with
  | none => return { time := some (← Time.read) }
  | some date =>
    match ← optional (satisfy isDateTimeMark *> Time.read) with
    | none => return { date := some date }
    | some time =>
      let offset ← optional (Offset.read)
      return { date := some date, time := some time, offset }

/-! ## Writing -/

/-- A number with zeros in front, up to a width. -/
def padded (width n : Nat) : String :=
  let digits := Nat.toDigits 10 n
  String.ofList (List.replicate (width - digits.length) '0' ++ digits)

def Date.text (d : Date) : String :=
  padded 4 d.year ++ "-" ++ padded 2 d.month ++ "-" ++ padded 2 d.day

/-- The fraction of a second without the zeros at its end. -/
def fractionText (nanosecond : Nat) : String :=
  if nanosecond = 0 then ""
  else
    "." ++ String.ofList ((padded 9 nanosecond).toList.reverse.dropWhile (· = '0')).reverse

def Time.text (t : Time) : String :=
  padded 2 t.hour ++ ":" ++ padded 2 t.minute ++ ":" ++ padded 2 t.second ++
    fractionText t.nanosecond

def Offset.text : Offset → String
  | .zulu => "Z"
  | .minutes ahead =>
    (if ahead < 0 then "-" else "+") ++ padded 2 (ahead.natAbs / 60) ++ ":" ++
      padded 2 (ahead.natAbs % 60)

def Datetime.text (d : Datetime) : String :=
  (d.date.map Date.text).getD "" ++
    (if d.date.isSome ∧ d.time.isSome then "T" else "") ++
    (d.time.map Time.text).getD "" ++ (d.offset.map Offset.text).getD ""

end Hypertext.Toml
