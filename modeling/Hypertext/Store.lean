import Hypertext.Builder

/-! # The store of slots

Slots are numbered in the order in which they came up and never go away. A slot that is being edited
keeps its builder in the store, but only its editor gets at it. -/

namespace Hypertext

structure Slot where
  builder : Builder
  editing : Bool := false
deriving DecidableEq, Repr

structure Store where
  slots : Array Slot := #[]
deriving DecidableEq, Repr

namespace Store

/-- The slot of a number; a number that no slot has yet stands for an empty one. -/
def slot (st : Store) (i : SlotId) : Slot :=
  st.slots.getD i { builder := { name := "" } }

def builder (st : Store) (i : SlotId) : Builder :=
  (st.slot i).builder

def isEdited (st : Store) (i : SlotId) : Bool :=
  (st.slot i).editing

def size (st : Store) : Nat :=
  st.slots.size

def put (st : Store) (i : SlotId) (b : Builder) : Store :=
  ⟨st.slots.modify i fun s => { s with builder := b }⟩

def setEditing (st : Store) (i : SlotId) (editing : Bool) : Store :=
  ⟨st.slots.modify i fun s => { s with editing }⟩

/-- A new slot that holds the builder. Its number is the size of the store before. -/
def allocate (st : Store) (b : Builder) : Store :=
  ⟨st.slots.push { builder := b }⟩

/-- The placeholders that a slot's builder knows; of a slot being edited, none can be told. -/
def placeholders (st : Store) (i : SlotId) : Registry :=
  if st.isEdited i then {} else (st.builder i).placeholders

/-- A slot without content is empty; one that is being edited is not. -/
def isEmpty (st : Store) (i : SlotId) : Bool :=
  !st.isEdited i && (st.builder i).isEmpty

end Store

end Hypertext
