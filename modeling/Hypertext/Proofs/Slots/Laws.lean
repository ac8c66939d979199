import Hypertext.Store

/-! # Laws of the store

What is read from a store behind a change: the slot that was changed has what was put there, and
the others are as before. -/

namespace Hypertext.Store

theorem slot_eq_getD (st : Store) (i : SlotId) :
    st.slot i = st.slots[i]?.getD { builder := { name := "" } } := by
  simp [slot, Array.getD_eq_getD_getElem?]

theorem slot_modify (st : Store) (i j : SlotId) (f : Slot → Slot) :
    (⟨st.slots.modify i f⟩ : Store).slot j =
      if j = i ∧ i < st.size then f (st.slot j) else st.slot j := by
  simp only [slot_eq_getD, Array.getElem?_modify, size]
  by_cases h : i = j
  · subst h
    by_cases hs : i < st.slots.size <;> simp [hs]
  · simp [h, Ne.symm h]

/-! ## Putting a builder into a slot -/

@[simp] theorem size_put (st : Store) (i : SlotId) (b : Builder) : (st.put i b).size = st.size := by
  simp [size, put]

@[simp] theorem isEdited_put (st : Store) (i j : SlotId) (b : Builder) :
    (st.put i b).isEdited j = st.isEdited j := by
  simp only [isEdited, put, slot_modify]
  split <;> rfl

theorem builder_put (st : Store) (i j : SlotId) (b : Builder) :
    (st.put i b).builder j = if j = i ∧ i < st.size then b else st.builder j := by
  simp only [builder, put, slot_modify]
  split <;> rfl

/-! ## Beginning and ending an edit -/

@[simp] theorem size_setEditing (st : Store) (i : SlotId) (editing : Bool) :
    (st.setEditing i editing).size = st.size := by
  simp [size, setEditing]

@[simp] theorem builder_setEditing (st : Store) (i j : SlotId) (editing : Bool) :
    (st.setEditing i editing).builder j = st.builder j := by
  simp only [builder, setEditing, slot_modify]
  split <;> rfl

theorem isEdited_setEditing (st : Store) (i j : SlotId) (editing : Bool) :
    (st.setEditing i editing).isEdited j =
      if j = i ∧ i < st.size then editing else st.isEdited j := by
  simp only [isEdited, setEditing, slot_modify]
  split <;> rfl

/-- Only a slot that there is can be edited. -/
theorem lt_size_of_isEdited {st : Store} {i : SlotId} (h : st.isEdited i = true) :
    i < st.size := by
  refine Nat.lt_of_not_le fun hn => ?_
  rw [isEdited, slot_eq_getD, Array.getElem?_eq_none hn] at h
  cases h

/-! ## New slots -/

@[simp] theorem size_allocate (st : Store) (b : Builder) : (st.allocate b).size = st.size + 1 := by
  simp [size, allocate]

theorem slot_allocate (st : Store) (b : Builder) (j : SlotId) :
    (st.allocate b).slot j = if j = st.size then { builder := b } else st.slot j := by
  simp only [slot_eq_getD, allocate, Array.getElem?_push, size]
  split <;> rfl

theorem builder_allocate (st : Store) (b : Builder) (j : SlotId) :
    (st.allocate b).builder j = if j = st.size then b else st.builder j := by
  simp only [builder, slot_allocate]
  split <;> rfl

theorem isEdited_allocate (st : Store) (b : Builder) (j : SlotId) :
    (st.allocate b).isEdited j = if j = st.size then false else st.isEdited j := by
  simp only [isEdited, slot_allocate]
  split <;> rfl

/-! ## Properties of all builders -/

variable {P : Builder → Prop} {st : Store} {b : Builder}

theorem forall_put (hs : ∀ i, P (st.builder i)) (hb : P b) (i : SlotId) :
    ∀ j, P ((st.put i b).builder j) := by
  intro j
  rw [builder_put]
  split
  · exact hb
  · exact hs j

theorem forall_allocate (hs : ∀ i, P (st.builder i)) (hb : P b) :
    ∀ j, P ((st.allocate b).builder j) := by
  intro j
  rw [builder_allocate]
  split
  · exact hb
  · exact hs j

theorem forall_setEditing (hs : ∀ i, P (st.builder i)) (i : SlotId) (editing : Bool) :
    ∀ j, P ((st.setEditing i editing).builder j) := by
  intro j
  rw [builder_setEditing]
  exact hs j

end Hypertext.Store
