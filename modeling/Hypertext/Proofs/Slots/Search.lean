import Hypertext.Proofs.Builder.Slots
import Hypertext.Proofs.Rendering.Unfolding
import Hypertext.Reach

/-! # What a search finds

The search through content follows the graph of slots, but it does not look into a slot that is
being edited. It finds just what can be reached past none of these: a path that comes back to a slot
can be cut short, so the marks of the search keep nothing from it. -/

namespace Hypertext

/-- A path that leaves `a` need not come back to it. -/
theorem leave_once {α : Type} {r : α → α → Prop} {a t : α} (h : Relation.TransGen r a t) :
    ∃ c, r a c ∧ (c = t ∨ Relation.TransGen (fun x y => x ≠ a ∧ r x y) c t) := by
  induction h with
  | @single t hr => exact ⟨t, hr, .inl rfl⟩
  | @tail x t _ hr ih =>
    by_cases hx : x = a
    · exact ⟨t, hx ▸ hr, .inl rfl⟩
    · obtain ⟨c, hac, hc⟩ := ih
      refine ⟨c, hac, .inr ?_⟩
      rcases hc with rfl | hc
      · exact .single ⟨hx, hr⟩
      · exact hc.tail ⟨hx, hr⟩

namespace Store

/-- The slot `j` stands in the slot `i`, which is not being edited. -/
def Shows (st : Store) (i j : SlotId) : Prop :=
  st.isEdited i = false ∧ st.Leads i j

/-- The slot `j` is reached from the slot `i` past no slot that is being edited. -/
def Finds (st : Store) : SlotId → SlotId → Prop :=
  Relation.TransGen st.Shows

variable {st : Store} {target : SlotId}

theorem Finds.reaches {i j : SlotId} (h : st.Finds i j) : st.Reaches i j :=
  Relation.TransGen.mono (fun _ _ hs => hs.2) i j h

theorem lt_size_of_leads {i j : SlotId} (h : st.Leads i j) : i < st.size := by
  rcases Nat.lt_or_ge i st.size with hi | hi
  · exact hi
  · rw [Leads, builder_of_size_le hi] at h
    cases h

/-! ## Rows of fragments -/

variable {enter : Handle → Marks → Search}

theorem searchFragments_slot (h : Handle) (fs : List Fragment) (marks : Marks) :
    searchFragments target enter (.slot h :: fs) marks =
      if h.slot = target then { found := true, marks }
      else if (enter h marks).found then enter h marks
      else searchFragments target enter fs (enter h marks).marks := rfl

theorem marks_searchFragments (hm : ∀ h marks, (enter h marks).marks = marks)
    (fs : List Fragment) (marks : Marks) :
    (searchFragments target enter fs marks).marks = marks := by
  induction fs with
  | nil => rfl
  | cons f fs ih =>
    cases f with
    | piece p => exact ih
    | slot h =>
      rw [searchFragments_slot]
      split
      · rfl
      · split
        · exact hm h marks
        · rw [hm, ih]

theorem found_searchFragments (hm : ∀ h marks, (enter h marks).marks = marks)
    (fs : List Fragment) (marks : Marks) :
    (searchFragments target enter fs marks).found = true ↔
      ∃ h, .slot h ∈ fs ∧ (h.slot = target ∨ (enter h marks).found = true) := by
  induction fs with
  | nil => simp [searchFragments]
  | cons f fs ih =>
    cases f with
    | piece p => simp [searchFragments, ih]
    | slot h =>
      rw [searchFragments_slot, hm]
      split
      · simp [*]
      · split <;> simp [*]

/-! ## Slots -/

@[simp] theorem marks_searchSlot (st : Store) (target : SlotId) (fuel : Nat) (h : Handle)
    (marks : Marks) : (st.searchSlot target fuel h marks).marks = marks := by
  induction fuel generalizing h marks with
  | zero => rfl
  | succ fuel ih =>
    simp only [searchSlot]
    split
    · rfl
    · split
      · simp only [List.erase_cons_head]
      · simp only [marks_searchFragments ih, List.erase_cons_head]

theorem found_searchSlot_succ (fuel : Nat) (h : Handle) (marks : Marks) :
    (st.searchSlot target (fuel + 1) h marks).found = true ↔
      h.slot ∉ marks ∧ ∃ g, st.Shows h.slot g.slot ∧
        .slot g ∈ (st.builder h.slot).fragments.toList ∧
        (g.slot = target ∨ (st.searchSlot target fuel g (h.slot :: marks)).found = true) := by
  have hg : (searchFragments target (st.searchSlot target fuel)
      (st.builder h.slot).fragments.toList (h.slot :: marks)).found = true ↔ _ :=
    found_searchFragments (marks_searchSlot st target fuel) _ _
  rw [searchSlot]
  by_cases hm : h.slot ∈ marks
  · simp [hm]
  · cases he : st.isEdited h.slot with
    | true => simp [hm, he, Shows]
    | false =>
      simp only [hm, Bool.false_eq_true, if_false, not_false_eq_true, true_and, hg]
      constructor
      · rintro ⟨g, hmem, hg⟩
        exact ⟨g, ⟨he, mem_slotsOf.mpr ⟨g, hmem, rfl⟩⟩, hmem, hg⟩
      · rintro ⟨g, _, hmem, hg⟩
        exact ⟨g, hmem, hg⟩

theorem finds_of_searchSlot (fuel : Nat) (h : Handle) (marks : Marks)
    (hf : (st.searchSlot target fuel h marks).found = true) : st.Finds h.slot target := by
  induction fuel generalizing h marks with
  | zero => cases hf
  | succ fuel ih =>
    obtain ⟨_, g, hs, _, hg⟩ := (found_searchSlot_succ fuel h marks).mp hf
    rcases hg with rfl | hg
    · exact .single hs
    · exact .head hs (ih g _ hg)

/-- What is reached past no marked slot is found. As for a walk, the depth is enough because the
slots around are all different. -/
theorem searchSlot_of_finds (fuel : Nat) (h : Handle) {marks : Marks} (hd : marks.Nodup)
    (hb : ∀ i ∈ marks, i < st.size) (hf : st.size < fuel + marks.length)
    (hp : Relation.TransGen (fun i j => i ∉ marks ∧ st.Shows i j) h.slot target) :
    (st.searchSlot target fuel h marks).found = true := by
  induction fuel generalizing h marks with
  | zero =>
    have := length_le_size hd hb
    omega
  | succ fuel ih =>
    -- the path leaves this slot once, so the rest of it also avoids the mark that comes now
    obtain ⟨j, ⟨hm, hs⟩, hj⟩ := leave_once hp
    obtain ⟨g, hmem, rfl⟩ := mem_slotsOf.mp hs.2
    refine (found_searchSlot_succ fuel h marks).mpr ⟨hm, g, hs, hmem, ?_⟩
    rcases hj with hj | hj
    · exact .inl hj
    · right
      refine ih g (List.nodup_cons.mpr ⟨hm, hd⟩)
        (List.forall_mem_cons.mpr ⟨lt_size_of_leads hs.2, hb⟩)
        (by simp only [List.length_cons]; omega) ?_
      refine Relation.TransGen.mono ?_ _ _ hj
      rintro i j ⟨hne, hi, hs⟩
      exact ⟨List.not_mem_cons_of_ne_of_not_mem hne hi, hs⟩

/-- The search behind a handle finds what is reached past no slot that is being edited. -/
theorem found_searchHandle {h : Handle} :
    (st.searchHandle h target).found = true ↔ st.Finds h.slot target := by
  constructor
  · exact finds_of_searchSlot _ h []
  · intro hf
    refine searchSlot_of_finds _ h List.nodup_nil (fun _ hi => nomatch hi)
      (Nat.lt_succ_self _) ?_
    exact Relation.TransGen.mono (fun _ _ hs => ⟨List.not_mem_nil, hs⟩) _ _ hf

theorem found_searchBuilder {b : Builder} :
    (st.searchBuilder b target).found = true ↔
      ∃ i ∈ b.slots, i = target ∨ st.Finds i target := by
  rw [searchBuilder, found_searchFragments (marks_searchSlot st target _)]
  constructor
  · rintro ⟨h, hm, hh⟩
    exact ⟨h.slot, mem_slotsOf.mpr ⟨h, hm, rfl⟩, hh.imp_right found_searchHandle.mp⟩
  · rintro ⟨_, hi, hh⟩
    obtain ⟨h, hm, rfl⟩ := mem_slotsOf.mp hi
    exact ⟨h, hm, hh.imp_right found_searchHandle.mpr⟩

end Store

/-! ## Content -/

namespace Content

/-- The content brings the slot, or one from which it is reached. -/
def Reaches (c : Content) (st : Store) (i : SlotId) : Prop :=
  ∃ j ∈ c.slots, j = i ∨ st.Reaches j i

/-- The content brings the slot, or one from which it is reached past no slot that is being
edited. -/
def Finds (c : Content) (st : Store) (i : SlotId) : Prop :=
  ∃ j ∈ c.slots, j = i ∨ st.Finds j i

variable {c : Content} {st : Store} {i : SlotId}

theorem Finds.reaches (h : c.Finds st i) : c.Reaches st i := by
  obtain ⟨j, hj, h⟩ := h
  exact ⟨j, hj, h.imp_right Store.Finds.reaches⟩

theorem leadsTo_iff : c.leadsTo st i = true ↔ c.Finds st i := by
  cases c with
  | slot h => simp [leadsTo, Finds, slots, Store.found_searchHandle]
  | snippet b => exact Store.found_searchBuilder
  | empty | text | markup => simp [leadsTo, Finds, slots]

/-- Without edits, the search finds all that is reached. -/
theorem leadsTo_iff_reaches (he : ∀ j, st.isEdited j = false) :
    c.leadsTo st i = true ↔ c.Reaches st i := by
  rw [leadsTo_iff]
  refine ⟨Finds.reaches, ?_⟩
  rintro ⟨j, hj, h⟩
  exact ⟨j, hj, h.imp_right (Relation.TransGen.mono (fun k _ hk => ⟨he k, hk⟩) _ _)⟩

end Content

end Hypertext
