import Hypertext.Store

/-! # Content

What an element or a slot can be given. Text is escaped for the element it lands in, markup is taken
as it is. A snippet's fragments are copied, while its slots stay shared; a handle brings the slot
itself. -/

namespace Hypertext

inductive Content where
  | empty
  | text (text : String)
  | markup (html : String)
  | snippet (builder : Builder)
  | slot (handle : Handle)
deriving DecidableEq, Repr

namespace Builder

/-- A placeholder's name is filed; a shared builder hands over the placeholders it has now. -/
def pushSlot (b : Builder) (h : Handle) (st : Store) : Logged Builder := do
  let placeholders ←
    if h.isPlaceholder then b.placeholders.adopt h
    else b.placeholders.merge (st.placeholders h.slot)
  return { b with placeholders }.push (.slot h)

/-- Content comes in and leaves the pending element open. -/
def append (b : Builder) (c : Content) (st : Store) : Logged Builder :=
  match c with
  | .empty => ⟨b, []⟩
  | .text text => ⟨b.pushText text, []⟩
  | .markup html => ⟨b.pushPiece (.text html), []⟩
  | .snippet snippet => b.adopt snippet
  | .slot h => b.pushSlot h st

/-- Content comes in and the pending element is closed behind it. -/
def content (b : Builder) (c : Content) (st : Store) : Logged Builder :=
  close <$> b.append c st

def contents (b : Builder) (cs : List Content) (st : Store) : Logged Builder :=
  close <$> cs.foldlM (fun b c => b.append c st) b

/-- An element whose content is one text. -/
def element (b : Builder) (identifier text : String) : Builder :=
  ((b.tag identifier).pushText text).close

/-- Code in a `<script>` element. -/
def script (b : Builder) (code : String) : Builder :=
  b.element "script" code

/-- Rules in a `<style>` element. -/
def style (b : Builder) (rules : String) : Builder :=
  b.element "style" rules

end Builder

end Hypertext
