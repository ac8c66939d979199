import Hypertext.Content
import Hypertext.Render

/-! # What content leads to

Before a slot takes content, a search looks whether the content leads back to it. Like rendering,
the search marks the slots that it is inside of; it does not look into slots being edited. -/

namespace Hypertext

structure Search where
  found : Bool
  marks : Marks

namespace Store

/-- The search through a row of fragments; `enter` searches a slot. -/
def searchFragments (target : SlotId) (enter : Handle → Marks → Search) :
    List Fragment → Marks → Search
  | [], marks => { found := false, marks }
  | .piece _ :: fs, marks => searchFragments target enter fs marks
  | .slot h :: fs, marks =>
    if h.slot = target then { found := true, marks }
    else
      let inner := enter h marks
      if inner.found then inner else searchFragments target enter fs inner.marks

/-- The search through a slot, through at most `fuel` slots inside one another. -/
def searchSlot (st : Store) (target : SlotId) : Nat → Handle → Marks → Search
  | 0, _, marks => { found := false, marks }
  | fuel + 1, h, marks =>
    if h.slot ∈ marks then { found := false, marks }
    else
      let marks := h.slot :: marks
      let inner :=
        if st.isEdited h.slot then { found := false, marks }
        else searchFragments target (searchSlot st target fuel)
          (st.builder h.slot).fragments.toList marks
      { inner with marks := inner.marks.erase h.slot }

/-- The search for a slot in the fragments of a builder. -/
def searchBuilder (st : Store) (b : Builder) (target : SlotId) : Search :=
  searchFragments target (st.searchSlot target st.depthBound) b.fragments.toList []

/-- The search for a slot behind a handle. -/
def searchHandle (st : Store) (h : Handle) (target : SlotId) : Search :=
  st.searchSlot target st.depthBound h []

end Store

/-- The content is the slot, or contains it at any depth. -/
def Content.leadsTo (c : Content) (st : Store) (target : SlotId) : Bool :=
  match c with
  | .slot h => h.slot == target || (st.searchHandle h target).found
  | .snippet b => (st.searchBuilder b target).found
  | .empty | .text _ | .markup _ => false

end Hypertext
