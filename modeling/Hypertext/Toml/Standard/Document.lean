import Hypertext.Toml.Standard.Datetime
import Hypertext.Toml.Standard.Table
import Hypertext.Toml.Standard.Text

/-! # Documents

A document is a row of lines: headers of tables, key-value pairs, comments and blank lines. -/

namespace Hypertext.Toml

open Reader

/-- The items of an array behind its opening bracket, at most so many. -/
def arrayItems (item : Reader Value) : Nat → Reader (List Value)
  | 0 => failure
  | more + 1 => do
    skipFiller
    if ← accept ']' then return []
    let v ← item
    skipFiller
    if ← accept ']' then return [v]
    char ','
    return v :: (← arrayItems item more)

/-- A path, a key and a value. -/
abbrev Pair := List String × String × Value

/-- A key with its value; a key of several parts is a path and a key. -/
def pair (item : Reader Value) : Reader Pair := do
  let parts ← key
  char '='
  skipSpaces
  let v ← item
  match parts.getLast? with
  | some last => return (parts.dropLast, last, v)
  | none => failure

/-- The pairs of an inline table that has some, at most so many. -/
def inlinePairs (item : Reader Value) : Nat → Reader (List Pair)
  | 0 => failure
  | more + 1 => do
    let p ← pair item
    skipSpaces
    if ← accept '}' then return [p]
    char ','
    return p :: (← inlinePairs item more)

/-- The table that the pairs of an inline table make. -/
def inlineTable (pairs : List Pair) : Option Value := do
  let insert (g : TableGroup) : Pair → Option TableGroup
    | (path, key, v) => g.insertValue path key v
  let g : TableGroup ← pairs.foldlM insert {}
  return .table g.entryValues

def boolean : Reader Bool :=
  (literal "true" *> pure true) <|> (literal "false" *> pure false)

/-- Values without parts. -/
def scalar : Reader Value :=
  (.string <$> string) <|> (.boolean <$> boolean) <|> (.datetime <$> Datetime.read) <|>
    (.float <$> float) <|> (.integer <$> integer)

/-- A value with at most so many arrays and inline tables inside one another. -/
def value : (depth : Nat) → Reader Value
  | 0 => scalar
  | depth + 1 => do
    match ← peek? with
    | some '[' =>
      char '['
      return .array (← arrayItems (value depth) ((← rest).length + 1))
    | some '{' =>
      char '{'
      skipSpaces
      if ← accept '}' then return .table []
      let pairs ← inlinePairs (value depth) ((← rest).length + 1)
      StateT.lift (inlineTable pairs)
    | _ => scalar

/-- A header's parts behind its opening brackets, as path and key. -/
def headerPath (close : String) : Reader (List String × String) := do
  let parts ← key
  literal close
  lineEnd
  match parts.getLast? with
  | some last => return (parts.dropLast, last)
  | none => failure

/-- One line that is not blank. -/
def line (d : Draft) : Reader Draft := do
  match ← peek? with
  | some '[' =>
    if (← rest).take 2 = ['[', '['] then
      literal "[["
      let (path, key) ← headerPath "]]"
      StateT.lift (d.startOneOfTables path key)
    else
      char '['
      let (path, key) ← headerPath "]"
      StateT.lift (d.startTable path key)
  | _ =>
    let (path, key, v) ← pair (value (depthLimit - 1))
    lineEnd
    StateT.lift (d.insert path key v)

/-- The lines of a document, at most so many. -/
def lines (d : Draft) : Nat → Reader Draft
  | 0 => failure
  | more + 1 => do
    skipSpaces
    match ← peek? with
    | none => return d
    | some '#' =>
      lineEnd
      lines d more
    | some '\n' | some '\r' =>
      newline
      lines d more
    | some _ => lines (← line d) more

/-- The entries of a document's root table, in order. A mark of the byte order may come first. -/
def parse? (text : String) : Option (List (String × Value)) := do
  let read := accept '\uFEFF' *> lines {} (text.length + 1)
  let d ← Reader.whole? read text
  let root ← d.finish
  return root.entryValues

end Hypertext.Toml
