import Hypertext.Store

/-! # Rendering

Rendering walks the fragments in order and enters the slots among them. The walk marks a slot while
it is inside, and passes over a slot that it finds marked: such a slot contains itself. It starts
with no marks and takes each of them back when it leaves the slot. -/

namespace Hypertext

/-- The slots that a walk is inside of. -/
abbrev Marks := List SlotId

/-- How far a walk has come. -/
structure Walk where
  pieces : List Piece := []
  log : List Message := []
  marks : Marks

namespace Store

/-- The walk over a row of fragments; `enter` walks a slot. -/
def walkFragments (enter : Handle → Marks → Walk) : List Fragment → Marks → Walk
  | [], marks => { marks }
  | .piece p :: fs, marks =>
    let rest := walkFragments enter fs marks
    { rest with pieces := p :: rest.pieces }
  | .slot h :: fs, marks =>
    let inner := enter h marks
    let rest := walkFragments enter fs inner.marks
    { pieces := inner.pieces ++ rest.pieces, log := inner.log ++ rest.log, marks := rest.marks }

/-- The walk over a builder ends with the end tags that it owes. -/
def walkBuilder (enter : Handle → Marks → Walk) (b : Builder) (marks : Marks) : Walk :=
  let body := walkFragments enter b.fragments.toList marks
  { body with pieces := body.pieces ++ b.stack.owed.map .endTag }

/-- The walk into a slot, through at most `fuel` slots inside one another. -/
def walkSlot (st : Store) : Nat → Handle → Marks → Walk
  | 0, _, marks => { marks }
  | fuel + 1, h, marks =>
    if h.slot ∈ marks then { log := [.insideItself h.name], marks }
    else
      let marks := h.slot :: marks
      let inner :=
        if st.isEdited h.slot then { log := [.beingEdited h.name], marks }
        else walkBuilder (walkSlot st fuel) (st.builder h.slot) marks
      { inner with marks := inner.marks.erase h.slot }

/-- A walk is never inside more slots than there are, so this depth is never used up. -/
def depthBound (st : Store) : Nat :=
  st.size + 1

/-- The walk that renders a builder. -/
def flatten (st : Store) (b : Builder) : Walk :=
  walkBuilder (st.walkSlot st.depthBound) b []

/-- The walk that renders a slot. -/
def flattenSlot (st : Store) (h : Handle) : Walk :=
  st.walkSlot st.depthBound h []

end Store

namespace Walk

def html (w : Walk) : String :=
  Piece.render w.pieces

def logged (w : Walk) : Logged String :=
  ⟨w.html, w.log⟩

end Walk

/-- The builder's markup. The builder stays as it is: what is still open is closed in the markup
only. -/
def Builder.render (b : Builder) (st : Store) : Logged String :=
  (st.flatten b).logged

def Handle.render (h : Handle) (st : Store) : Logged String :=
  (st.flattenSlot h).logged

end Hypertext
