/-! # Readers

A reader takes what it reads from the front of a text and leaves the rest, or fails. -/

namespace Hypertext.Toml

abbrev Reader (α : Type) := StateT (List Char) Option α

namespace Reader

/-- The rest of the text, which stays unread. -/
def rest : Reader (List Char) := get

/-- The next character, which stays unread. -/
def peek? : Reader (Option Char) := return (← rest).head?

def satisfy (p : Char → Bool) : Reader Char
  | c :: cs => if p c then some (c, cs) else none
  | [] => none

def char (c : Char) : Reader Unit :=
  discard (satisfy (· == c))

/-- The text goes on with this one. -/
def literal (expected : String) : Reader Unit := fun cs =>
  if expected.toList.isPrefixOf cs then some ((), cs.drop expected.length) else none

/-- The characters up to the first one without the property. -/
def takeWhile (p : Char → Bool) : Reader (List Char) := fun cs =>
  some (cs.takeWhile p, cs.dropWhile p)

def skipWhile (p : Char → Bool) : Reader Unit :=
  discard (takeWhile p)

/-- The character is there and is read. -/
def accept (c : Char) : Reader Bool :=
  return (← optional (char c)).isSome

/-- As many decimal digits as asked for, as a number. -/
def digits (count : Nat) : Reader Nat := fun cs =>
  let ds := cs.take count
  if ds.length = count ∧ ds.all Char.isDigit then
    some (Nat.ofDigitChars 10 ds 0, cs.drop count)
  else none

/-- What the reader reads when it reads the whole text. -/
def whole? {α : Type} (r : Reader α) (text : String) : Option α :=
  match r text.toList with
  | some (a, []) => some a
  | _ => none

end Reader

/-- The blanks inside a line. -/
def isSpace (c : Char) : Bool :=
  c == ' ' || c == '\t'

/-- Characters that may stand in a comment: all but controls, and the tab. -/
def isCommentChar (c : Char) : Bool :=
  c == '\t' || (' ' ≤ c && c != '\x7f')

namespace Reader

def skipSpaces : Reader Unit :=
  skipWhile isSpace

/-- A line feed, or a carriage return with its line feed. -/
def newline : Reader Unit :=
  char '\n' <|> literal "\r\n"

/-- A comment up to the end of its line, if there is one. -/
def skipComment : Reader Unit := do
  if ← accept '#' then skipWhile isCommentChar

/-- Nothing more but a comment stands in the line. -/
def lineEnd : Reader Unit := do
  skipSpaces
  skipComment
  if (← rest).isEmpty then pure () else newline

/-- Blanks, line ends and comments are passed over. -/
def filler : (inComment : Bool) → List Char → Option (List Char)
  | _, [] => some []
  | _, '\n' :: cs => filler false cs
  | _, '\r' :: '\n' :: cs => filler false cs
  | true, c :: cs => if isCommentChar c then filler true cs else none
  | false, c :: cs =>
    if c = '#' then filler true cs
    else if isSpace c then filler false cs
    else some (c :: cs)

def skipFiller : Reader Unit := fun cs =>
  (filler false cs).map ((), ·)

end Reader

end Hypertext.Toml
