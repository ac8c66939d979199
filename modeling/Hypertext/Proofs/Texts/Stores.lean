import Hypertext.Proofs.Rendering.Walk
import Hypertext.Proofs.Slots.Laws
import Hypertext.Proofs.Texts.Erase
import Hypertext.Reach

/-! # Slots without texts

The walk through the slots and the search for one of them go the same ways with the texts taken
out. -/

namespace Hypertext

def Slot.erase (s : Slot) : Slot :=
  { s with builder := s.builder.erase }

def Store.erase (st : Store) : Store :=
  ⟨st.slots.map Slot.erase⟩

def Content.erase : Content → Content
  | .empty => .empty
  | .text _ => .text ""
  | .markup html => .markup (eraseMarkup html)
  | .snippet b => .snippet b.erase
  | .slot h => .slot h

def Walk.erase (w : Walk) : Walk :=
  { w with pieces := w.pieces.map Piece.erase }

namespace Store

variable {st : Store}

@[simp] theorem size_erase (st : Store) : st.erase.size = st.size := by
  simp [size, erase]

theorem slot_erase (st : Store) (i : SlotId) : st.erase.slot i = (st.slot i).erase := by
  simp only [slot_eq_getD, erase, Array.getElem?_map]
  cases st.slots[i]? <;> simp [Slot.erase]

@[simp] theorem builder_erase (st : Store) (i : SlotId) :
    st.erase.builder i = (st.builder i).erase := by
  rw [builder, slot_erase]
  rfl

@[simp] theorem isEdited_erase (st : Store) (i : SlotId) : st.erase.isEdited i = st.isEdited i := by
  rw [isEdited, slot_erase]
  rfl

theorem placeholders_erase (st : Store) (i : SlotId) :
    st.erase.placeholders i = st.placeholders i := by
  simp [placeholders]

/-- A change of one slot that commutes with taking out the texts. -/
theorem erase_modify {f g : Slot → Slot} (hfg : ∀ s, (f s).erase = g s.erase) (st : Store)
    (i : SlotId) : (⟨st.slots.modify i f⟩ : Store).erase = ⟨st.erase.slots.modify i g⟩ := by
  refine congrArg Store.mk (Array.ext_getElem? fun j => ?_)
  simp only [erase, Array.getElem?_map, Array.getElem?_modify]
  split <;> cases st.slots[j]? <;> simp [hfg]

theorem erase_put (st : Store) (i : SlotId) (b : Builder) :
    (st.put i b).erase = st.erase.put i b.erase := by
  refine erase_modify ?_ st i
  intro s
  rfl

theorem erase_setEditing (st : Store) (i : SlotId) (editing : Bool) :
    (st.setEditing i editing).erase = st.erase.setEditing i editing := by
  refine erase_modify ?_ st i
  intro s
  rfl

theorem erase_allocate (st : Store) (b : Builder) :
    (st.allocate b).erase = st.erase.allocate b.erase := by
  simp [erase, allocate, Slot.erase]

/-! ## Walks -/

theorem walkFragments_erase {enter enter' : Handle → Marks → Walk}
    (he : ∀ h marks, enter' h marks = (enter h marks).erase) (fs : List Fragment) (marks : Marks) :
    walkFragments enter' (fs.map Fragment.erase) marks = (walkFragments enter fs marks).erase := by
  induction fs generalizing marks with
  | nil => rfl
  | cons f fs ih =>
    cases f with
    | piece p =>
      rw [List.map_cons, Fragment.erase, walkFragments_piece, walkFragments_piece, ih]
      rfl
    | slot h =>
      rw [List.map_cons, Fragment.erase, walkFragments_slot, walkFragments_slot, he, ih]
      simp [Walk.erase, Walk.join]

theorem walkBuilder_erase {enter enter' : Handle → Marks → Walk}
    (he : ∀ h marks, enter' h marks = (enter h marks).erase) (b : Builder) (marks : Marks) :
    walkBuilder enter' b.erase marks = (walkBuilder enter b marks).erase := by
  simp [walkBuilder, walkFragments_erase he, Walk.erase, Piece.erase]

theorem walkSlot_erase (st : Store) (fuel : Nat) (h : Handle) (marks : Marks) :
    st.erase.walkSlot fuel h marks = (st.walkSlot fuel h marks).erase := by
  induction fuel generalizing h marks with
  | zero => rfl
  | succ fuel ih =>
    by_cases hm : h.slot ∈ marks
    · rw [walkSlot_of_mem hm, walkSlot_of_mem hm]
      rfl
    · cases he : st.isEdited h.slot with
      | true =>
        rw [walkSlot_of_edited hm he, walkSlot_of_edited hm (by rw [isEdited_erase, he])]
        rfl
      | false =>
        rw [walkSlot_of_free hm he, walkSlot_of_free hm (by rw [isEdited_erase, he]),
          builder_erase, walkBuilder_erase ih]
        rfl

theorem flatten_erase (st : Store) (b : Builder) :
    st.erase.flatten b.erase = (st.flatten b).erase := by
  rw [flatten, depthBound, size_erase]
  exact walkBuilder_erase (st.walkSlot_erase _) b []

theorem flattenSlot_erase (st : Store) (h : Handle) :
    st.erase.flattenSlot h = (st.flattenSlot h).erase := by
  rw [flattenSlot, depthBound, size_erase]
  exact st.walkSlot_erase _ h []

/-! ## Searches -/

theorem searchFragments_erase (target : SlotId) (enter : Handle → Marks → Search)
    (fs : List Fragment) (marks : Marks) :
    searchFragments target enter (fs.map Fragment.erase) marks =
      searchFragments target enter fs marks := by
  induction fs generalizing marks with
  | nil => rfl
  | cons f fs ih =>
    cases f with
    | piece p => exact ih marks
    | slot h => simp only [List.map_cons, Fragment.erase, searchFragments, ih]

theorem searchSlot_erase (st : Store) (target : SlotId) (fuel : Nat) :
    st.erase.searchSlot target fuel = st.searchSlot target fuel := by
  induction fuel with
  | zero => rfl
  | succ fuel ih =>
    funext h marks
    simp only [searchSlot, isEdited_erase, builder_erase, Builder.toList_erase,
      searchFragments_erase, ih]

end Store

/-- What content leads to does not depend on texts. -/
theorem Content.leadsTo_erase (c : Content) (st : Store) (target : SlotId) :
    c.erase.leadsTo st.erase target = c.leadsTo st target := by
  cases c <;>
    simp [leadsTo, erase, Store.searchHandle, Store.searchBuilder, Store.depthBound,
      Store.searchSlot_erase, Store.searchFragments_erase]

end Hypertext
