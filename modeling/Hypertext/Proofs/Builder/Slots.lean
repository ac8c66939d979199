import Hypertext.Proofs.Rendering.Endings
import Hypertext.Proofs.Slots.Graph

/-! # The slots of a builder

Which slots stand among the fragments of a builder, and what each operation does to them. Only
content brings slots; everything else leaves them as they are. -/

namespace Hypertext

@[simp] theorem slotsOf_append (fs gs : List Fragment) :
    slotsOf (fs ++ gs) = slotsOf fs ++ slotsOf gs :=
  List.filterMap_append

@[simp] theorem slotsOf_endTags (names : List String) : slotsOf (Builder.endTags names) = [] := by
  induction names with
  | nil => rfl
  | cons n names ih => rw [Builder.endTags_cons, slotsOf_piece, ih]

/-- A piece takes the place of a piece. -/
theorem slotsOf_set {fs : List Fragment} {i : Nat} {p : Piece} (h : fs[i]? = some (.piece p))
    (q : Piece) : slotsOf (fs.set i (.piece q)) = slotsOf fs := by
  induction fs generalizing i with
  | nil => rfl
  | cons f fs ih =>
    cases i with
    | zero =>
      cases h
      rfl
    | succ i => cases f <;> simp [ih h]

theorem mem_slotsOf {fs : List Fragment} {i : SlotId} :
    i ∈ slotsOf fs ↔ ∃ h, .slot h ∈ fs ∧ h.slot = i := by
  induction fs with
  | nil => simp
  | cons f fs ih =>
    cases f with
    | piece p => simp [ih]
    | slot h => simp [ih, eq_comm]

namespace Builder

/-- The slots that stand among the fragments. -/
def slots (b : Builder) : List SlotId :=
  slotsOf b.fragments.toList

variable {b c : Builder}

theorem slots_of_append {more : List Fragment}
    (h : c.fragments.toList = b.fragments.toList ++ more) : c.slots = b.slots ++ slotsOf more := by
  rw [slots, h, slotsOf_append, slots]

@[simp] theorem slots_new (name : String) : ({ name } : Builder).slots = [] := rfl

@[simp] theorem slots_withPlaceholders (b : Builder) (r : Registry) :
    ({ b with placeholders := r } : Builder).slots = b.slots := rfl

@[simp] theorem slots_push_slot (b : Builder) (h : Handle) :
    (b.push (.slot h)).slots = b.slots ++ [h.slot] :=
  slots_of_append (toList_push b _)

@[simp] theorem slots_pushPiece (b : Builder) (p : Piece) : (b.pushPiece p).slots = b.slots := by
  simp [slots_of_append (toList_pushPiece b p)]

@[simp] theorem slots_pushText (b : Builder) (text : String) : (b.pushText text).slots = b.slots :=
  slots_pushPiece b _

@[simp] theorem slots_comment (b : Builder) (text : String) : (b.comment text).slots = b.slots :=
  slots_pushPiece b _

@[simp] theorem slots_close (b : Builder) : b.close.slots = b.slots := by
  simp [slots_of_append (toList_close b)]

@[simp] theorem slots_tag (b : Builder) (identifier : String) :
    (b.tag identifier).slots = b.slots := by
  simp [slots_of_append (toList_tag b identifier)]

@[simp] theorem slots_leaveScope (b : Builder) : b.leaveScope.slots = b.slots := by
  simp [slots_of_append (toList_leaveScope b)]

@[simp] theorem slots_snapshot (b : Builder) : b.snapshot.slots = b.slots := by
  have h : b.snapshot.fragments.toList = _ := toList_pushEnds b b.stack.owed
  simp [slots_of_append h]

@[simp] theorem slots_adopt (host snippet : Builder) :
    (host.adopt snippet).value.slots = host.slots ++ snippet.slots := by
  rw [slots_of_append (toList_adopt host snippet), ended, slotsOf_append, slotsOf_endTags,
    List.append_nil]
  rfl

/-- A start tag takes the place of a start tag. -/
theorem slots_replaceTag {element : OpenTag} {old : StartTag}
    (h : b.startTagAt? element.position = some old) (tag : StartTag) :
    (b.replaceTag element tag).slots = b.slots := by
  unfold startTagAt? at h
  split at h
  · rename_i hat
    rw [← Array.getElem?_toList] at hat
    simp only [slots, replaceTag, Array.toList_setIfInBounds, slotsOf_set hat]
  · cases h

theorem startTagAt?_of_pendingTag? {element : OpenTag} {tag : StartTag}
    (h : b.pendingTag? = some (element, tag)) : b.startTagAt? element.position = some tag := by
  obtain ⟨e, _, h⟩ := Option.bind_eq_some_iff.mp h
  obtain ⟨t, ht, h⟩ := Option.map_eq_some_iff.mp h
  cases h
  exact ht

@[simp] theorem slots_giveAttributes (b : Builder) (given : Attributes) :
    (b.giveAttributes given).value.slots = b.slots := by
  unfold giveAttributes
  split
  · rfl
  · split
    · rename_i h
      exact slots_replaceTag (startTagAt?_of_pendingTag? h) _
    · rfl

@[simp] theorem slots_enterScope (b : Builder) : b.enterScope.value.slots = b.slots := by
  unfold enterScope
  cases h : b.pendingTag? with
  | none => rfl
  | some found => exact slots_replaceTag (startTagAt?_of_pendingTag? h) _

end Builder

/-! ## Content -/

namespace Content

/-- The slots that the content brings. -/
def slots : Content → List SlotId
  | .slot h => [h.slot]
  | .snippet b => b.slots
  | .empty | .text _ | .markup _ => []

end Content

namespace Builder

@[simp] theorem slots_append (b : Builder) (c : Content) (st : Store) :
    (b.append c st).value.slots = b.slots ++ c.slots := by
  cases c with
  | empty => exact (List.append_nil _).symm
  | text text => simp [append, Content.slots]
  | markup html => simp [append, Content.slots]
  | snippet snippet => exact slots_adopt b snippet
  | slot h =>
    obtain ⟨r, pushed⟩ := exists_pushSlot b h st
    rw [append, pushed]
    exact slots_push_slot _ h

@[simp] theorem slots_content (b : Builder) (c : Content) (st : Store) :
    (b.content c st).value.slots = b.slots ++ c.slots := by
  rw [content, Logged.value_map, slots_close, slots_append]

@[simp] theorem slots_contents (b : Builder) (cs : List Content) (st : Store) :
    (b.contents cs st).value.slots = b.slots ++ cs.flatMap Content.slots := by
  rw [contents, Logged.value_map, slots_close]
  induction cs generalizing b with
  | nil => exact (List.append_nil _).symm
  | cons c cs ih =>
    rw [List.foldlM_cons, Logged.value_bind, ih, slots_append, List.flatMap_cons, List.append_assoc]

@[simp] theorem slots_element (b : Builder) (identifier text : String) :
    (b.element identifier text).slots = b.slots := by
  simp [element]

end Builder

end Hypertext
