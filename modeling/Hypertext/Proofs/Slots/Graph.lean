import Hypertext.Store
import Mathlib.Logic.Relation

/-! # The graph of slots

A slot leads to the slots that stand among its builder's fragments. -/

namespace Hypertext

/-- The slots that stand among the fragments. -/
def slotsOf (fs : List Fragment) : List SlotId :=
  fs.filterMap fun
    | .piece _ => none
    | .slot h => some h.slot

@[simp] theorem slotsOf_nil : slotsOf [] = [] := rfl

@[simp] theorem slotsOf_piece (p : Piece) (fs : List Fragment) :
    slotsOf (.piece p :: fs) = slotsOf fs := rfl

@[simp] theorem slotsOf_slot (h : Handle) (fs : List Fragment) :
    slotsOf (.slot h :: fs) = h.slot :: slotsOf fs := rfl

namespace Store

/-- The slot `j` stands among the fragments of the slot `i`. -/
def Leads (st : Store) (i j : SlotId) : Prop :=
  j ∈ slotsOf (st.builder i).fragments.toList

/-- The slot `j` is reached from the slot `i` through one slot or more. -/
def Reaches (st : Store) : SlotId → SlotId → Prop :=
  Relation.TransGen st.Leads

/-- No slot contains itself, at any depth. -/
def Acyclic (st : Store) : Prop :=
  ∀ i, ¬ st.Reaches i i

/-- A number that no slot has stands for an empty builder. -/
theorem builder_of_size_le {st : Store} {i : SlotId} (h : st.size ≤ i) :
    st.builder i = { name := "" } := by
  simp only [size] at h
  simp [builder, slot, Array.getD, Nat.not_lt.mpr h]

end Store

end Hypertext
