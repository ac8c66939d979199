import Hypertext.Proofs.Lives.Pending

/-! # Fragments that stay

Nothing but a reset takes fragments away, and of those that are there only the pending start tag can
still change. So what stands before the pending element stays in front, whatever comes later. -/

namespace Hypertext.Builder

variable {b c : Builder} {base : List Fragment}

theorem pending_of_pendingTag? {element : OpenTag} {tag : StartTag}
    (h : b.pendingTag? = some (element, tag)) : b.pending = some element := by
  obtain ⟨e, hp, found⟩ := Option.bind_eq_some_iff.mp h
  obtain ⟨t, _, same⟩ := Option.map_eq_some_iff.mp found
  cases same
  exact hp

/-- The fragments begin with these, and a pending element stands behind them. -/
structure Keeps (base : List Fragment) (b : Builder) : Prop where
  fragments : base <+: b.fragments.toList
  pending : ∀ element, b.pending = some element → base.length ≤ element.position

namespace Keeps

theorem of_extends (h : b.Keeps base) (hc : b.Extends c) : c.Keeps base := by
  refine ⟨h.fragments.trans hc.fragments, ?_⟩
  intro element hp
  rcases hc.pending with hn | hs
  · rw [hn] at hp
    cases hp
  · rw [hs] at hp
    exact h.pending element hp

/-- An element that begins stands behind all that was there. -/
theorem tag (h : base <+: b.fragments.toList) (identifier : String) :
    (b.tag identifier).Keeps base := by
  have closed : base <+: b.close.fragments.toList := h.trans (Extends.close b).fragments
  refine ⟨h.trans ⟨_, (toList_tag b identifier).symm⟩, ?_⟩
  intro element hp
  cases hp
  show base.length ≤ b.close.fragments.size
  rw [← Array.length_toList]
  exact closed.length_le

theorem prefix_replaceTag (h : b.Keeps base) {element : OpenTag} (hp : b.pending = some element)
    (tag : StartTag) : base <+: (b.replaceTag element tag).fragments.toList := by
  obtain ⟨more, split⟩ := h.fragments
  have behind := h.pending element hp
  rw [replaceTag, Array.toList_setIfInBounds, ← split, List.set_append_right _ _ behind]
  exact List.prefix_append _ _

theorem giveAttributes (h : b.Keeps base) (given : Attributes) :
    (b.giveAttributes given).value.Keeps base := by
  refine ⟨?_, ?_⟩
  · unfold Builder.giveAttributes
    split
    · exact h.fragments
    · split
      · rename_i element tag hpending
        exact h.prefix_replaceTag (pending_of_pendingTag? hpending) _
      · exact h.fragments
  · intro element hp
    rw [Builder.pending, stack_giveAttributes] at hp
    exact h.pending element hp

theorem enterScope (h : b.Keeps base) : b.enterScope.value.Keeps base := by
  refine ⟨?_, fun element hp => nomatch hp⟩
  unfold Builder.enterScope
  cases hpending : b.pendingTag? with
  | none => exact h.fragments
  | some found => exact h.prefix_replaceTag (pending_of_pendingTag? hpending) _

/-- Every event but a reset keeps the fragments in front. -/
theorem after (h : b.Keeps base) {event : Event} (hr : ∀ st, event ≠ .call .reset st) :
    (b.after event).Keeps base := by
  by_cases adds : event.Adds
  · exact h.of_extends (.after adds b)
  · -- Four calls do more than put fragments behind.
    cases event with
    | leaveScope => exact absurd trivial adds
    | call call st =>
      cases call with
      | tag identifier => exact .tag h.fragments identifier
      | attributes given => exact h.giveAttributes _
      | enterScope => exact h.enterScope
      | reset => exact absurd rfl (hr st)
      | _ => exact absurd trivial adds

theorem afterAll {events : List Event} (h : b.Keeps base)
    (hr : ∀ e ∈ events, ∀ st, e ≠ .call .reset st) : (b.afterAll events).Keeps base := by
  induction events generalizing b with
  | nil => exact h
  | cons e es ih =>
    obtain ⟨he, hes⟩ := List.forall_mem_cons.mp hr
    exact ih (h.after he) hes

/-- What stands in front is rendered first. -/
theorem render {ps : List Piece} (h : b.Keeps (ps.map .piece)) (st : Store) :
    ∃ rest log, b.render st = ⟨Piece.render ps ++ rest, log⟩ := by
  obtain ⟨more, split⟩ := h.fragments
  have ended : b.ended = ps.map .piece ++ (more ++ endTags b.stack.owed) := by
    rw [Builder.ended, ← split, List.append_assoc]
  let behind := Store.walkFragments (st.walkSlot st.depthBound) (more ++ endTags b.stack.owed) []
  refine ⟨Piece.render behind.pieces, behind.log, ?_⟩
  rw [Builder.render, flatten_eq_walk, ended,
    Store.walkFragments_append (Store.marks_walkSlot st st.depthBound),
    Store.walkFragments_pieces]
  exact Logged.ext (Piece.render_append ps behind.pieces) rfl

end Keeps

end Hypertext.Builder
