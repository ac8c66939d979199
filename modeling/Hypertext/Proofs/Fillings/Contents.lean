import Hypertext.Proofs.Rendering.Endings

/-! # Builders that hold contents

A builder without tags holds nothing but what it was given: a row of contents. It is rendered as
they are, one behind the other, each as it is at the time. -/

namespace Hypertext

/-! ## Contents -/

namespace Content

/-- The content among the fragments of a builder with no open element. -/
def fragments : Content → List Fragment
  | .empty => []
  | .text t => [.piece (.text (Escape.escapeText t))]
  | .markup html => [.piece (.text html)]
  | .snippet b => b.ended
  | .slot h => [.slot h]

/-- The content as it is rendered where no element is open. -/
def render (c : Content) (st : Store) : Logged String :=
  match c with
  | .empty => ⟨"", []⟩
  | .text t => ⟨Escape.escapeText t, []⟩
  | .markup html => ⟨html, []⟩
  | .snippet b => b.render st
  | .slot h => h.render st

/-- The contents one behind the other. -/
def renderAll (cs : List Content) (st : Store) : Logged String :=
  ⟨String.join (cs.map fun c => (c.render st).value), cs.flatMap fun c => (c.render st).log⟩

theorem walk_fragments (c : Content) (st : Store) :
    (Store.walkFragments (st.walkSlot st.depthBound) c.fragments []).logged = c.render st := by
  cases c with
  | snippet b =>
    rw [fragments, ← Builder.flatten_eq_walk]
    rfl
  | slot h =>
    have walked : Store.walkFragments (st.walkSlot st.depthBound) [.slot h] [] =
        { st.flattenSlot h with marks := [] } := by
      rw [Store.walkFragments_slot, Store.marks_walkSlot]
      simp [Walk.join, Store.flattenSlot]
    rw [fragments, walked]
    rfl
  | empty => rfl
  | text t | markup t =>
    simp [fragments, render, Store.walkFragments, Walk.logged, Walk.html, Piece.render, Piece.html]

theorem walk_flatMap_fragments (cs : List Content) (st : Store) :
    (Store.walkFragments (st.walkSlot st.depthBound) (cs.flatMap fragments) []).logged =
      renderAll cs st := by
  have hm := Store.marks_walkSlot st st.depthBound
  induction cs with
  | nil => rfl
  | cons c cs ih =>
    have here := walk_fragments c st
    have values := congrArg Logged.value ih
    have logs := congrArg Logged.log ih
    rw [List.flatMap_cons, Store.walkFragments_append hm]
    apply Logged.ext
    · rw [renderAll, List.map_cons, String.join_cons, ← here]
      exact (Piece.render_append _ _).trans (congrArg (_ ++ ·) values)
    · rw [renderAll, List.flatMap_cons, ← here]
      exact congrArg (_ ++ ·) logs

end Content

/-! ## Builders -/

namespace Builder

/-- The builder holds the contents, and no element of it is open. -/
structure Stocked (b : Builder) (cs : List Content) : Prop where
  stack : b.stack = {}
  fragments : b.fragments.toList = cs.flatMap Content.fragments

namespace Stocked

variable {b : Builder} {cs : List Content}

theorem new (name : String) : ({ name } : Builder).Stocked [] :=
  ⟨rfl, rfl⟩

theorem append (hb : b.Stocked cs) (c : Content) (st : Store) :
    (b.append c st).value.Stocked (cs ++ [c]) := by
  have grown : (cs ++ [c]).flatMap Content.fragments = b.fragments.toList ++ c.fragments := by
    rw [List.flatMap_append, ← hb.fragments, List.flatMap_singleton]
  refine ⟨(stack_append b c st).trans hb.stack, ?_⟩
  rw [grown]
  cases c with
  | empty => exact (List.append_nil _).symm
  | text text =>
    rw [Builder.append, pushText, toList_pushPiece, hb.stack]
    rfl
  | markup html => exact toList_pushPiece b _
  | snippet snippet => exact toList_adopt b snippet
  | slot h =>
    obtain ⟨r, pushed⟩ := exists_pushSlot b h st
    rw [Builder.append, pushed]
    exact toList_push _ _

theorem content (hb : b.Stocked cs) (c : Content) (st : Store) :
    (b.content c st).value.Stocked (cs ++ [c]) := by
  have appended := hb.append c st
  refine ⟨?_, ?_⟩
  · rw [Builder.content, Logged.value_map, stack_close, appended.stack]
  · rw [Builder.content, Logged.value_map, toList_close, appended.stack, appended.fragments]
    exact List.append_nil _

theorem pending (hb : b.Stocked cs) : b.pending = none := by
  rw [Builder.pending, hb.stack]

theorem depth (hb : b.Stocked cs) : b.depth = 0 := by
  rw [Builder.depth, hb.stack]
  rfl

/-- The builder is rendered as its contents are. -/
theorem render (hb : b.Stocked cs) (st : Store) : b.render st = Content.renderAll cs st := by
  have ended : b.ended = cs.flatMap Content.fragments := by
    rw [Builder.ended, hb.stack, hb.fragments]
    exact List.append_nil _
  rw [Builder.render, flatten_eq_walk, ended, Content.walk_flatMap_fragments]

end Stocked

end Builder

end Hypertext
