import Hypertext.Toml.Standard.Number

/-! # Strings

Basic strings know escapes, literal ones do not; three quotes in place of one let a string have more
than one line. -/

namespace Hypertext.Toml

open Reader

/-- Characters that a basic string shows as they are. -/
def isBasicChar (c : Char) : Bool :=
  isCommentChar c && c != '"' && c != '\\'

/-- Characters that a literal string shows as they are. -/
def isLiteralChar (c : Char) : Bool :=
  isCommentChar c && c != '\''

/-- The escapes of one letter. -/
def simpleEscape? : Char → Option Char
  | 'b' => some '\x08'
  | 't' => some '\t'
  | 'n' => some '\n'
  | 'f' => some '\x0c'
  | 'r' => some '\r'
  | '"' => some '"'
  | '\\' => some '\\'
  | _ => none

/-- The number of digits of an escape by number. -/
def numericEscape? : Char → Option Nat
  | 'u' => some 4
  | 'U' => some 8
  | _ => none

/-- The character of a number in hexadecimal digits. -/
def charOfHex? (ds : List Char) : Option Char :=
  let n := ofDigits 16 ds
  if ds.all isHexDigit ∧ n.isValidChar then some (Char.ofNat n) else none

/-- The character that an escape stands for; the letter `e` is behind the backslash. -/
def escape? (e : Char) (cs : List Char) : Option (Char × List Char) :=
  match simpleEscape? e, numericEscape? e with
  | some c, _ => some (c, cs)
  | none, some count =>
    if (cs.take count).length = count then
      (charOfHex? (cs.take count)).map (·, cs.drop count)
    else none
  | none, none => none

theorem length_le_of_escape? {e c : Char} {cs rest : List Char}
    (h : escape? e cs = some (c, rest)) : rest.length ≤ cs.length := by
  unfold escape? at h
  split at h
  · simp_all
  · split at h
    · obtain ⟨d, -, hd⟩ := Option.map_eq_some_iff.1 h
      have : cs.drop _ = rest := (Prod.mk.inj hd).2
      simp [← this]
    · simp at h
  · simp at h

/-- A basic string behind its opening quote. -/
def basicBody : List Char → Option (List Char × List Char)
  | [] => none
  | c :: cs =>
    if c = '"' then some ([], cs)
    else if c = '\\' then
      match cs with
      | [] => none
      | e :: cs =>
        match h : escape? e cs with
        | none => none
        | some (d, rest) =>
          have := length_le_of_escape? h
          (basicBody rest).map fun (ds, rest) => (d :: ds, rest)
    else if isBasicChar c then (basicBody cs).map fun (ds, rest) => (c :: ds, rest)
    else none
termination_by cs => cs.length

/-- A run of three to five quotes ends a string of several lines. What the run has beyond three
belongs to the string. -/
def closing? (quote : Char) (cs : List Char) : Option (List Char × List Char) :=
  let run := (cs.takeWhile (· == quote)).length
  if run < 3 then none
  else
    let inside := min (run - 3) 2
    some (List.replicate inside quote, cs.drop (inside + 3))

/-- Where a string of several lines stands. -/
inductive LineState where
  | inLine
  /-- Behind a backslash that has to be the last character of its line. -/
  | beforeBreak
  /-- Behind such a line, up to the next character that is not blank. -/
  | afterBreak
deriving DecidableEq

/-- A backslash ends the line before which only blanks stand. -/
def breaksLine (cs : List Char) : Bool :=
  match cs.dropWhile isSpace with
  | '\n' :: _ => true
  | '\r' :: '\n' :: _ => true
  | _ => false

/-- A basic string of several lines behind its opening quotes. -/
def multilineBasicBody (place : LineState) : List Char → Option (List Char × List Char)
  | [] => none
  | c :: cs =>
    if place ≠ .inLine ∧ isSpace c then multilineBasicBody place cs
    else if place ≠ .inLine ∧ c = '\n' then multilineBasicBody .afterBreak cs
    else if place ≠ .inLine ∧ c = '\r' ∧ cs.head? = some '\n' then multilineBasicBody place cs
    else
      match closing? '"' (c :: cs) with
      | some found => some found
      | none =>
        if c = '\\' then
          if breaksLine cs then multilineBasicBody .beforeBreak cs
          else
            match cs with
            | [] => none
            | e :: cs =>
              match h : escape? e cs with
              | none => none
              | some (d, rest) =>
                have := length_le_of_escape? h
                (multilineBasicBody .inLine rest).map fun (ds, rest) => (d :: ds, rest)
        else if c = '\r' then
          if cs.head? = some '\n' then multilineBasicBody .inLine cs else none
        else if isBasicChar c ∨ c = '\n' ∨ c = '"' then
          (multilineBasicBody .inLine cs).map fun (ds, rest) => (c :: ds, rest)
        else none
termination_by cs => cs.length

/-- A literal string behind its opening quote. -/
def literalBody : List Char → Option (List Char × List Char)
  | [] => none
  | c :: cs =>
    if c = '\'' then some ([], cs)
    else if isLiteralChar c then (literalBody cs).map fun (ds, rest) => (c :: ds, rest)
    else none

/-- A literal string of several lines behind its opening quotes. -/
def multilineLiteralBody : List Char → Option (List Char × List Char)
  | [] => none
  | c :: cs =>
    match closing? '\'' (c :: cs) with
    | some found => some found
    | none =>
      if c = '\r' then
        if cs.head? = some '\n' then multilineLiteralBody cs else none
      else if isCommentChar c ∨ c = '\n' then
        (multilineLiteralBody cs).map fun (ds, rest) => (c :: ds, rest)
      else none

/-- A line end right behind the opening quotes does not belong to the string. -/
def multiline (quotes : String) (body : List Char → Option (List Char × List Char)) :
    Reader (List Char) := do
  literal quotes
  discard (optional newline)
  body

def singleLine (quote : Char) (body : List Char → Option (List Char × List Char)) :
    Reader (List Char) := do
  char quote
  body

/-- A string of one line, as keys have it too. -/
def plainString : Reader (List Char) :=
  singleLine '"' basicBody <|> singleLine '\'' literalBody

def string : Reader String := do
  let cs ←
    if (← rest).take 3 = ['"', '"', '"'] then
      multiline "\"\"\"" (multilineBasicBody .inLine)
    else if (← rest).take 3 = ['\'', '\'', '\''] then
      multiline "'''" multilineLiteralBody
    else plainString
  return String.ofList cs

/-- Characters of a key without quotes. -/
def isBareKeyChar (c : Char) : Bool :=
  c.isAlphanum || c == '_' || c == '-'

def bareKey : Reader (List Char) := do
  let cs ← takeWhile isBareKeyChar
  guard (cs ≠ [])
  return cs

/-- A part of a key, with the blanks around it. -/
def keyPart : Reader String := do
  skipSpaces
  let cs ← plainString <|> bareKey
  skipSpaces
  return String.ofList cs

/-- The parts of a key with points between them, at most so many. -/
def keyParts : Nat → Reader (List String)
  | 0 => failure
  | more + 1 => do
    let part ← keyPart
    if ← accept '.' then return part :: (← keyParts more) else return [part]

/-- A key has fewer parts than this, and values are nested less deeply. -/
def depthLimit : Nat := 80

def key : Reader (List String) :=
  keyParts (depthLimit - 1)

end Hypertext.Toml
