import Hypertext.Proofs.Builder.Parts
import Hypertext.Render

/-! # Walks

A walk takes back every mark that it sets, so the walks over the parts of a row of fragments do not
depend on one another: what they come to is joined in order. -/

namespace Hypertext

namespace Walk

/-- One walk goes on where another one has ended. -/
def join (w v : Walk) : Walk where
  pieces := w.pieces ++ v.pieces
  log := w.log ++ v.log
  marks := v.marks

@[simp] theorem pieces_join (w v : Walk) : (w.join v).pieces = w.pieces ++ v.pieces := rfl

@[simp] theorem log_join (w v : Walk) : (w.join v).log = w.log ++ v.log := rfl

@[simp] theorem marks_join (w v : Walk) : (w.join v).marks = v.marks := rfl

end Walk

namespace Store

variable {enter : Handle → Marks → Walk}

@[simp] theorem walkFragments_nil (marks : Marks) :
    walkFragments enter [] marks = { marks } := rfl

theorem walkFragments_piece (p : Piece) (fs : List Fragment) (marks : Marks) :
    walkFragments enter (.piece p :: fs) marks =
      { walkFragments enter fs marks with pieces := p :: (walkFragments enter fs marks).pieces } :=
  rfl

theorem walkFragments_slot (h : Handle) (fs : List Fragment) (marks : Marks) :
    walkFragments enter (.slot h :: fs) marks =
      (enter h marks).join (walkFragments enter fs (enter h marks).marks) := rfl

theorem marks_walkFragments (hm : ∀ h marks, (enter h marks).marks = marks)
    (fs : List Fragment) (marks : Marks) : (walkFragments enter fs marks).marks = marks := by
  induction fs with
  | nil => rfl
  | cons f fs ih =>
    cases f with
    | piece p => exact ih
    | slot h => rw [walkFragments_slot, Walk.marks_join, hm, ih]

theorem marks_walkBuilder (hm : ∀ h marks, (enter h marks).marks = marks)
    (b : Builder) (marks : Marks) : (walkBuilder enter b marks).marks = marks :=
  marks_walkFragments hm b.fragments.toList marks

/-- Whatever way the walk leaves a slot, its marks are those that it came with. -/
@[simp] theorem marks_walkSlot (st : Store) (fuel : Nat) (h : Handle) (marks : Marks) :
    (st.walkSlot fuel h marks).marks = marks := by
  induction fuel generalizing h marks with
  | zero => rfl
  | succ fuel ih =>
    simp only [walkSlot]
    split
    · rfl
    · split
      · simp only [List.erase_cons_head]
      · simp only [marks_walkBuilder ih, List.erase_cons_head]

/-! ## The walk into a slot -/

theorem walkSlot_of_mem {st : Store} {h : Handle} {marks : Marks} (hm : h.slot ∈ marks)
    (fuel : Nat) :
    st.walkSlot (fuel + 1) h marks = { log := [.insideItself h.name], marks } := by
  rw [walkSlot, if_pos hm]

theorem walkSlot_of_edited {st : Store} {h : Handle} {marks : Marks} (hm : h.slot ∉ marks)
    (he : st.isEdited h.slot = true) (fuel : Nat) :
    st.walkSlot (fuel + 1) h marks = { log := [.beingEdited h.name], marks } := by
  rw [walkSlot, if_neg hm]
  simp only [he, if_true, List.erase_cons_head]

theorem walkSlot_of_free {st : Store} {h : Handle} {marks : Marks} (hm : h.slot ∉ marks)
    (he : st.isEdited h.slot = false) (fuel : Nat) :
    st.walkSlot (fuel + 1) h marks =
      { walkBuilder (st.walkSlot fuel) (st.builder h.slot) (h.slot :: marks) with marks } := by
  rw [walkSlot, if_neg hm]
  simp only [he, Bool.false_eq_true, if_false, marks_walkBuilder (marks_walkSlot st fuel),
    List.erase_cons_head]

/-! ## Rows of fragments -/

theorem walkFragments_append (hm : ∀ h marks, (enter h marks).marks = marks)
    (fs gs : List Fragment) (marks : Marks) :
    walkFragments enter (fs ++ gs) marks =
      (walkFragments enter fs marks).join (walkFragments enter gs marks) := by
  induction fs with
  | nil => rfl
  | cons f fs ih =>
    cases f with
    | piece p => simp only [List.cons_append, walkFragments_piece, ih, Walk.join]
    | slot h =>
      simp only [List.cons_append, walkFragments_slot, hm, ih, Walk.join, List.append_assoc]

/-- Finished pieces are found as they are. -/
theorem walkFragments_pieces (ps : List Piece) (marks : Marks) :
    walkFragments enter (ps.map .piece) marks = { pieces := ps, marks } := by
  induction ps with
  | nil => rfl
  | cons p ps ih => simp only [List.map_cons, walkFragments_piece, ih]

theorem walkFragments_endTags (names : List String) (marks : Marks) :
    walkFragments enter (Builder.endTags names) marks =
      { pieces := names.map .endTag, marks } := by
  have h := @walkFragments_pieces enter (names.map .endTag) marks
  rwa [List.map_map] at h

/-- The end tags that a builder owes can as well stand among its fragments. -/
theorem walkBuilder_eq (hm : ∀ h marks, (enter h marks).marks = marks) (b : Builder)
    (marks : Marks) :
    walkBuilder enter b marks =
      walkFragments enter (b.fragments.toList ++ Builder.endTags b.stack.owed) marks := by
  simp only [walkBuilder, walkFragments_append hm, walkFragments_endTags, Walk.join,
    List.append_nil, marks_walkFragments hm]

/-- What is true of no pieces, and of the walk over a slot's builder when it is true of every slot
entered on the way, is true of the walk into a slot: one that is passed over adds nothing. -/
theorem pieces_walkSlot {Q : List Piece → Prop} {st : Store} (nil : Q [])
    (entered : ∀ (i : SlotId) (enter : Handle → Marks → Walk),
      (∀ h marks, Q (enter h marks).pieces) → ∀ marks,
        Q (walkFragments enter ((st.builder i).fragments.toList ++
          Builder.endTags (st.builder i).stack.owed) marks).pieces)
    (fuel : Nat) (h : Handle) (marks : Marks) : Q (st.walkSlot fuel h marks).pieces := by
  induction fuel generalizing h marks with
  | zero => exact nil
  | succ fuel ih =>
    by_cases hm : h.slot ∈ marks
    · rw [walkSlot_of_mem hm]
      exact nil
    · cases he : st.isEdited h.slot with
      | true =>
        rw [walkSlot_of_edited hm he]
        exact nil
      | false =>
        rw [walkSlot_of_free hm he, walkBuilder_eq (marks_walkSlot st fuel)]
        exact entered h.slot _ ih _

end Store

end Hypertext
