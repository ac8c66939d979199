import Hypertext.Unicode.Blank

/-! # Paragraphs of plain text

Lines belong to one paragraph up to the next blank line. -/

namespace Hypertext.CommandLine

/-- The pieces of a text, each up to a line feed and with it. -/
def feedPieces : List Char → List (List Char)
  | [] => []
  | c :: cs =>
    if c = '\n' then [c] :: feedPieces cs
    else
      match feedPieces cs with
      | [] => [[c]]
      | l :: ls => (c :: l) :: ls

/-- The line without the line feed that ends it, and without a carriage return before that. -/
def withoutFeed (piece : List Char) : List Char :=
  if piece.getLast? = some '\n' then
    let line := piece.dropLast
    if line.getLast? = some '\r' then line.dropLast else line
  else piece

/-- The lines of a text. Nothing behind the last line feed is no line. -/
def textLines (text : List Char) : List (List Char) :=
  (feedPieces text).map withoutFeed

/-- What has been made of the lines so far. -/
structure Gathered where
  /-- The paragraphs that are complete. -/
  paragraphs : List String := []
  /-- The lines of the paragraph at hand. -/
  current : List (List Char) := []

namespace Gathered

/-- The paragraph at hand, if it has lines, is complete: its lines are joined by spaces. -/
def flush (g : Gathered) : Gathered :=
  if g.current.isEmpty then g
  else { paragraphs := g.paragraphs ++ [String.ofList ([' '].intercalate g.current)] }

/-- An empty line completes the paragraph at hand, and any other one comes to it. -/
def take (g : Gathered) (line : List Char) : Gathered :=
  if line.isEmpty then g.flush else { g with current := g.current ++ [line] }

end Gathered

/-- The paragraphs of a text, each on one line. -/
def paragraphs (source : String) : List String :=
  let gathered : Gathered :=
    (textLines source.toList).foldl (fun g line => g.take (Unicode.trim line)) {}
  gathered.flush.paragraphs

end Hypertext.CommandLine
