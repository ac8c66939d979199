import Hypertext.Escape.Comment
import Hypertext.Escape.RawText
import Hypertext.Registry
import Hypertext.TagStack
import Hypertext.Unicode.Blank

/-! # Builders

A builder takes tags one after the other, without a tree. What closes an element is decided by what
comes next: the next tag, content, the end of a scope or the end of the document. -/

namespace Hypertext

structure Builder where
  name : String
  fragments : Array Fragment := #[]
  placeholders : Registry := {}
  stack : TagStack := {}
deriving DecidableEq, Repr

namespace Builder

def pending (b : Builder) : Option OpenTag :=
  b.stack.pending

def depth (b : Builder) : Nat :=
  b.stack.depth

def isEmpty (b : Builder) : Bool :=
  b.fragments.isEmpty

def push (b : Builder) (f : Fragment) : Builder :=
  { b with fragments := b.fragments.push f }

def pushPiece (b : Builder) (p : Piece) : Builder :=
  b.push (.piece p)

/-- The end tags of the names, in order. -/
def pushEnds (b : Builder) (names : List String) : Builder :=
  names.foldl (fun b name => b.pushPiece (.endTag name)) b

/-- The pending element ends here, with its end tag if it needs one. -/
def close (b : Builder) : Builder :=
  { b with stack.pending := none }.pushEnds b.stack.impliedEnd.toList

/-- A new element, pending from now on. The element before it is closed first. -/
def tag (b : Builder) (identifier : String) : Builder :=
  let name := htmlName identifier
  let b := b.close
  { b.pushPiece (.startTag { name }) with
    stack.pending := some { name, position := b.fragments.size } }

/-- The start tag that stands at a place among the fragments. -/
def startTagAt? (b : Builder) (position : Nat) : Option StartTag :=
  match b.fragments[position]? with
  | some (.piece (.startTag tag)) => some tag
  | _ => none

/-- The start tag of the pending element. -/
def pendingTag? (b : Builder) : Option (OpenTag × StartTag) :=
  b.pending.bind fun element => (b.startTagAt? element.position).map (element, ·)

/-- The pending element has this start tag instead. -/
def replaceTag (b : Builder) (element : OpenTag) (tag : StartTag) : Builder :=
  { b with
    fragments := b.fragments.setIfInBounds element.position (.piece (.startTag tag)) }

/-- The attributes go to the pending element, behind those that it has. -/
def giveAttributes (b : Builder) (given : Attributes) : Logged Builder :=
  if given.html = "" then ⟨b, []⟩
  else
    match b.pendingTag? with
    | some (element, tag) =>
      ⟨b.replaceTag element { tag with attributes := tag.attributes ++ given }, []⟩
    | none =>
      let text := String.ofList (Unicode.trimStart given.html.toList)
      ⟨b, [.attributesIgnored b.name text]⟩

def giveAttribute (b : Builder) (identifier : String) (value : AttributeValue) : Logged Builder :=
  b.giveAttributes ⟨[⟨identifier, value⟩]⟩

/-- Text as it is written inside an element of a kind. -/
def escapeFor : Option ElementKind → String → String
  | some .script => Escape.escapeScript
  | some .style => Escape.escapeStyle
  | _ => Escape.escapeText

/-- A comment leaves the pending element as it is. -/
def comment (b : Builder) (text : String) : Builder :=
  b.pushPiece (.text ("<!--" ++ Escape.escapeComment text ++ "-->"))

def pushText (b : Builder) (text : String) : Builder :=
  b.pushPiece (.text (escapeFor b.stack.textKind text))

/-- Another builder's fragments come in, with the end tags that it owes and its placeholders. -/
def adopt (host snippet : Builder) : Logged Builder := do
  unless snippet.placeholders.isEmpty do
    ⟨(), [.adopting host.name snippet.placeholders.names snippet.name]⟩
  let placeholders ← host.placeholders.merge snippet.placeholders
  return { host with
      placeholders
      fragments := host.fragments ++ snippet.fragments }.pushEnds snippet.stack.owed

/-- A copy in which every open element is closed. -/
def snapshot (b : Builder) : Builder :=
  { b.pushEnds b.stack.owed with stack := {} }

/-- The pending element stays open for what follows, up to `leaveScope`. -/
def enterScope (b : Builder) : Logged Builder :=
  let held :=
    match b.pendingTag? with
    | some (element, tag) => b.replaceTag element { tag with heldOpen := true }
    | none => b
  let warnings :=
    match b.pending with
    | some element => if element.kind.isVoid then [.voidScope b.name element.name] else []
    | none => []
  ⟨{ held with stack := b.stack.enter }, warnings⟩

/-- The innermost scope ends, with the end tag that it owes. -/
def leaveScope (b : Builder) : Builder :=
  let b := b.close
  match b.stack.scopes with
  | [] => b
  | scope :: scopes => { b with stack.scopes := scopes }.pushEnds scope.owes.toList

/-- Nothing but the name is left. -/
def reset (b : Builder) : Builder :=
  { name := b.name }

end Builder

end Hypertext
