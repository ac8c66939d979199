import Hypertext.Toml.Library
import Hypertext.Toml.Standard.Document
import Hypertext.Toml.Standard.Printer
import Hypertext.Unicode.Shown

/-! # The standard library for configuration files

The reader and the printer that the program runs with. -/

namespace Hypertext

/-! ## Tables that stand for dates -/

namespace Toml.Value

mutual

/-- The value in which each table whose first key is `datetimeKey` has become the date or time that
stands there; none if there is none. -/
def resolve : Value → Option Value
  | array items => array <$> resolveItems items
  | table [] => some (table [])
  | table ((name, value) :: entries) =>
    if name = datetimeKey then
      match value with
      | string text => datetime <$> Reader.whole? Datetime.read text
      | _ => none
    else do
      let value ← resolve value
      let entries ← resolveEntries entries
      return table ((name, value) :: entries)
  | v => some v

def resolveItems : List Value → Option (List Value)
  | [] => some []
  | v :: vs => do return (← resolve v) :: (← resolveItems vs)

def resolveEntries : List (String × Value) → Option (List (String × Value))
  | [] => some []
  | (name, v) :: entries => do return (name, ← resolve v) :: (← resolveEntries entries)

end

/-- The entries of a table. A date or time stands for a table of one entry. -/
def entries : Value → Except ConfigError (List (String × Value))
  | table entries => .ok entries
  | datetime d => .ok [(datetimeKey, string d.text)]
  | v => .error (.wrongType v .map)

/-- The value is read as a table, whatever its first key is; the values in it are resolved. -/
def readTable (v : Value) : Except ConfigError (List (String × Value)) := do
  match resolveEntries (← v.entries) with
  | none => .error .malformed
  | some entries => return entries

end Toml.Value

/-! ## Messages -/

def Expected.description : Expected → String
  | text => "a string"
  | sequence => "a sequence"
  | map => "a map"

/-- Numbers in messages: whole ones have a point too. -/
def shownFloatLayout : Decimal.NumberLayout where
  nan := "NaN"
  infinity := "inf"
  wholeEnd := ".0"

/-- A value as an error names it. -/
def foundText : Toml.Value → String
  | .string text => "string " ++ Unicode.shown text
  | .integer n => "integer `" ++ toString n ++ "`"
  | .float x => "floating point `" ++ x.text Decimal.binary64 shownFloatLayout ++ "`"
  | .boolean b => "boolean `" ++ (if b then "true" else "false") ++ "`"
  | .array _ => "sequence"
  | .datetime _ | .table _ => "map"

/-- What is wrong, without the place in the text. -/
def ConfigError.message : ConfigError → String
  | malformed => "the text is no TOML document"
  | unknownField key =>
    "unknown field `" ++ key ++ "`, expected one of `title`, `html`, `viewport`, `urls`"
  | wrongType found expected =>
    "invalid type: " ++ foundText found ++ ", expected " ++ expected.description
  | wrongViewport => "data did not match any variant of untagged enum TomlViewport"

/-- The error that is told. In a text that is no document as a whole, it is that the text is none. -/
def ConfigError.told (text : String) (e : ConfigError) : ConfigError :=
  if ((Toml.parse? text).bind Toml.Value.resolveEntries).isSome then e else malformed

/-! ## The library -/

def Toml.standard : Toml.Library where
  document? := parse?
  table := Value.readTable
  display := Value.display
  report text e := (e.told text).message

end Hypertext
