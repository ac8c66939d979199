import Hypertext.Attributes
import Hypertext.Handle

/-! # Fragments

A builder's output is a row of fragments: finished pieces of markup, and slots whose markup is asked
for only when the builder is rendered. -/

namespace Hypertext

structure StartTag where
  name : String
  attributes : Attributes := {}
  /-- The element was held open by a scope, so its end tag is written whatever its kind. -/
  heldOpen : Bool := false
deriving DecidableEq, Repr

def StartTag.html (tag : StartTag) : String :=
  "<" ++ tag.name ++ tag.attributes.html ++ ">"

/-- A piece of finished markup. -/
inductive Piece where
  | startTag (tag : StartTag)
  | endTag (name : String)
  /-- Escaped text, trusted markup or a comment. -/
  | text (html : String)
deriving DecidableEq, Repr

namespace Piece

def html : Piece → String
  | startTag tag => tag.html
  | endTag name => "</" ++ name ++ ">"
  | text html => html

/-- The markup of a row of pieces. -/
def render (pieces : List Piece) : String :=
  String.join (pieces.map html)

@[simp] theorem toList_render (pieces : List Piece) :
    (render pieces).toList = pieces.flatMap (·.html.toList) := by
  simp [render, String.toList_join, List.flatMap_map]

end Piece

inductive Fragment where
  | piece (piece : Piece)
  | slot (handle : Handle)
deriving DecidableEq, Repr

end Hypertext
