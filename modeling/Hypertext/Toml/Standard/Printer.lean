import Hypertext.Toml.Standard.Datetime
import Hypertext.Toml.Standard.Text

/-! # Writing values

A value on one line, except that a string with line feeds takes more. A string is written in the
first of its four forms that shows it without escapes; if all need some, in a basic one. -/

namespace Hypertext.Toml

/-! ## Strings -/

/-- The longest run of a character in a text. -/
def longestRun (c : Char) (text : List Char) : Nat :=
  (text.foldl (fun (best, run) d => if d = c then (max best (run + 1), run + 1) else (best, 0))
    (0, 0)).1

/-- Controls that only an escape can show. The tab is not one of them, nor is the line feed. -/
def needsEscape (c : Char) : Bool :=
  (c < ' ' && c != '\t' && c != '\n') || c == '\x7f'

inductive StringForm where
  | basic
  | literal
  | multilineBasic
  | multilineLiteral
deriving DecidableEq

/-- The form in which a text is written as a value. -/
def stringForm (text : List Char) : StringForm :=
  let escapes := text.any needsEscape
  let broken := '\n' ∈ text
  if !escapes ∧ '\\' ∉ text ∧ '"' ∉ text ∧ !broken then .basic
  else if !escapes ∧ '\'' ∉ text ∧ !broken then .literal
  else if !escapes ∧ '\\' ∉ text ∧ longestRun '"' text ≤ 2 then .multilineBasic
  else if !escapes ∧ longestRun '\'' text ≤ 2 then .multilineLiteral
  else if broken then .multilineBasic
  else .basic

/-- The form in which a key is written that needs quotes. -/
def keyForm (text : List Char) : StringForm :=
  let escapes := text.any needsEscape || text.contains '\n'
  if !escapes ∧ '\\' ∉ text ∧ '"' ∉ text then .basic
  else if !escapes ∧ '\'' ∉ text then .literal
  else .basic

/-- Hexadecimal digits in capitals, at least four. -/
def fourHexDigits (n : Nat) : List Char :=
  let digits := (Nat.toDigits 16 n).map Char.toUpper
  List.replicate (4 - digits.length) '0' ++ digits

/-- A character inside a basic string. -/
def escaped (multiline : Bool) (c : Char) : List Char :=
  if c = '\x08' then ['\\', 'b']
  else if c = '\t' then ['\\', 't']
  else if c = '\n' then if multiline then ['\n'] else ['\\', 'n']
  else if c = '\x0c' then ['\\', 'f']
  else if c = '\r' then ['\\', 'r']
  else if c = '\\' then ['\\', '\\']
  else if c < ' ' ∨ c = '\x7f' then '\\' :: 'u' :: fourHexDigits c.toNat
  else [c]

/-- A text inside a basic string. On one line every quote is escaped, on several only one that would
be the third of its run. -/
def escapedText (multiline : Bool) : (quotes : Nat) → List Char → List Char
  | _, [] => []
  | quotes, c :: cs =>
    if c = '"' then
      if multiline && quotes < 2 then '"' :: escapedText multiline (quotes + 1) cs
      else '\\' :: '"' :: escapedText multiline 0 cs
    else escaped multiline c ++ escapedText multiline 0 cs

/-- The line end behind the opening quotes of a text that has line feeds. -/
def opening (text : List Char) : List Char :=
  if '\n' ∈ text then ['\n'] else []

/-- A text in one of the forms. -/
def quoted (form : StringForm) (text : List Char) : String :=
  match form with
  | .basic => "\"" ++ String.ofList (escapedText false 0 text) ++ "\""
  | .literal => "'" ++ String.ofList text ++ "'"
  | .multilineBasic =>
    "\"\"\"" ++ String.ofList (opening text ++ escapedText true 0 text) ++ "\"\"\""
  | .multilineLiteral => "'''" ++ String.ofList (opening text ++ text) ++ "'''"

def stringText (text : String) : String :=
  quoted (stringForm text.toList) text.toList

def keyText (key : String) : String :=
  if !key.isEmpty ∧ key.toList.all isBareKeyChar then key
  else quoted (keyForm key.toList) key.toList

/-! ## Values -/

/-- The entries of a table, which are written already, between its brackets. -/
def tableText (entries : List String) : String :=
  if entries.isEmpty then "\x7b\x7d" else "\x7b " ++ ", ".intercalate entries ++ " \x7d"

mutual

/-- A value that stands inside another one. -/
def Value.text : Value → String
  | .string text => stringText text
  | .integer n => toString n
  | .float x => floatText x
  | .boolean b => if b then "true" else "false"
  | .datetime d => d.text
  | .array items => "[" ++ ", ".intercalate (itemTexts items) ++ "]"
  | .table entries => tableText (entryTexts entries)

def itemTexts : List Value → List String
  | [] => []
  | v :: vs => v.text :: itemTexts vs

def entryTexts : List (String × Value) → List String
  | [] => []
  | (key, v) :: es => (keyText key ++ " = " ++ v.text) :: entryTexts es

end

/-- A value that stands alone. A date or time is then written as the table that stands for it. -/
def Value.display : Value → String
  | .datetime d => (Value.table [(datetimeKey, .string d.text)]).text
  | v => v.text

end Hypertext.Toml
