import Hypertext.Proofs.Nesting.Held
import Hypertext.Proofs.Nesting.Pairs
import Hypertext.Proofs.Session.Made

/-! # Tags nest

A slot brings the pieces of its builder with the end tags that the builder owes, and these leave
nothing open. So what a builder's own fragments leave open, its rendering leaves open too, whatever
stands in the slots. -/

namespace Hypertext

open Piece (scan Neutral Paired)

namespace Store

variable {P : Policy} {st : Store}

theorem scan_walkFragments {enter : Handle → Marks → Walk}
    (he : ∀ h marks, Neutral (enter h marks).pieces) (fs : List Fragment) (marks : Marks)
    (names : List String) :
    scan (walkFragments enter fs marks).pieces names = scan (ownPieces fs) names := by
  induction fs generalizing marks names with
  | nil => rfl
  | cons f fs ih =>
    cases f with
    | piece p =>
      rw [walkFragments_piece, ownPieces_piece, Piece.scan_cons, Piece.scan_cons]
      exact Option.bind_congr fun after _ => ih marks after
    | slot h =>
      rw [walkFragments_slot, Walk.pieces_join, Piece.scan_append, (he h marks).scan,
        Option.bind_some, ih, ownPieces_slot]

/-- A slot leaves nothing open, at any depth and on any path. -/
theorem Made.neutral_walkSlot (hs : st.Made P) (fuel : Nat) (h : Handle) (marks : Marks) :
    Neutral (st.walkSlot fuel h marks).pieces := by
  have nil : Neutral [] := rfl
  refine pieces_walkSlot nil ?_ fuel h marks
  intro i enter he marks
  rw [Neutral, scan_walkFragments he]
  exact (hs i).nests.neutral_ended

theorem Made.neutral_flatten (hs : st.Made P) {b : Builder} (hb : b.Made P) :
    Neutral (st.flatten b).pieces := by
  rw [Builder.flatten_eq_walk, Neutral, scan_walkFragments (hs.neutral_walkSlot _)]
  exact hb.nests.neutral_ended

end Store

namespace Session

/-- **Tags nest.** In every state that a session reaches, whatever scopes were left, leaked or given
up, the tags of every rendering are paired, and an element is closed as its kind and the scopes that
were opened on it say: `StartTag.isClosed`. Whether a scope was opened on an element is what its
start tag has noted: `Builder.HeldByScopes`. -/
theorem tags_nest {s : Session} (h : s.Reachable) :
    (∀ name b, s.builder? name = some b →
      b.HeldByScopes ∧ ∃ pair, Paired (s.store.flatten b).pieces pair) ∧
    ∀ handle : Handle,
      (s.store.builder handle.slot).HeldByScopes ∧
      ∃ pair, Paired (s.store.flattenSlot handle).pieces pair := by
  have made := h.made
  constructor
  · intro name b hb
    have hb := made.builder? hb
    exact ⟨hb.nests.heldByScopes, _, Piece.paired_of_neutral (made.store.neutral_flatten hb)⟩
  · intro handle
    exact ⟨(made.store handle.slot).nests.heldByScopes, _,
      Piece.paired_of_neutral (made.store.neutral_walkSlot _ handle [])⟩

/-- A list item with a scope that is left open, and in it a line break and bold text. -/
def openItem : List Action :=
  [.perform (.create "b" none),
    .perform (.call "b" (.tag "li")),
    .perform (.call "b" .enterScope),
    .perform (.call "b" (.tag "br")),
    .perform (.call "b" (.tag "b"))]

theorem tags_nest_openItem :
    (run {} openItem).Reachable ∧ ∃ b pair,
      (run {} openItem).builder? "b" = some b ∧
      ((run {} openItem).store.flatten b).pieces =
        [.startTag { name := "li", heldOpen := true }, .startTag { name := "br" },
          .startTag { name := "b" }, .endTag "b", .endTag "li"] ∧
      Paired ((run {} openItem).store.flatten b).pieces pair := by
  have reached := Reachable.start.run openItem
  have hb : (run {} openItem).builder? "b" = some
      { name := "E Builder"
        fragments := #[.piece (.startTag { name := "li", heldOpen := true }),
          .piece (.startTag { name := "br" }), .piece (.startTag { name := "b" })]
        stack :=
          { pending := some ⟨"b", 2⟩, scopes := [⟨some .optionalEnd, some "li"⟩] } } := by
    decide +kernel
  obtain ⟨_, pair, hp⟩ := (tags_nest reached).1 "b" _ hb
  exact ⟨reached, _, pair, hb, by decide +kernel, hp⟩

end Session

end Hypertext
