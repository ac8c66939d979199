import Hypertext.Proofs.Nesting.Builders
import Hypertext.Proofs.Session.Every
import Hypertext.Proofs.Session.Made

/-! # What is owed was opened

An end tag is owed for a start tag that stands among the fragments, and each for one of its own. A
builder without fragments has no start tag, so it owes nothing: that it is empty can be told from its
fragments alone, though its rendering ends with what the scopes owe. -/

namespace Hypertext

/-! ## Start tags -/

namespace Piece

/-- The start tags among pieces, in order. -/
def startTags (ps : List Piece) : List StartTag :=
  ps.filterMap fun
    | .startTag tag => some tag
    | .endTag _ | .text _ => none

@[simp] theorem startTags_nil : startTags [] = [] := rfl

@[simp] theorem startTags_startTag (tag : StartTag) (ps : List Piece) :
    startTags (.startTag tag :: ps) = tag :: startTags ps := rfl

@[simp] theorem startTags_endTag (name : String) (ps : List Piece) :
    startTags (.endTag name :: ps) = startTags ps := rfl

@[simp] theorem startTags_text (html : String) (ps : List Piece) :
    startTags (.text html :: ps) = startTags ps := rfl

/-- What is open behind the pieces was open before, or a start tag among them opened it: the last
one is the innermost. -/
theorem sublist_of_scan {ps : List Piece} {names after : List String}
    (h : scan ps names = some after) :
    after.Sublist (((startTags ps).map StartTag.name).reverse ++ names) := by
  induction ps generalizing names with
  | nil =>
    cases h
    rw [startTags_nil]
    exact List.Sublist.refl _
  | cons p ps ih =>
    cases p with
    | startTag tag =>
      -- the element is open from here on, or it has no end tag and adds nothing
      have opened := ih (scan_startTag tag ps names ▸ h)
      rw [startTags_startTag, List.map_cons, List.reverse_cons, List.append_assoc]
      refine opened.trans (List.Sublist.append_left ?_ _)
      cases tag.isClosed with
      | true => exact List.Sublist.refl _
      | false => exact List.sublist_cons_self _ _
    | endTag name =>
      rw [startTags_endTag]
      cases names with
      | nil => cases h
      | cons n names =>
        rw [scan_endTag_cons] at h
        split at h
        · exact (ih h).trans ((List.sublist_cons_self n names).append_left _)
        · cases h
    | text html =>
      rw [startTags_text]
      exact ih (scan_text html ps names ▸ h)

end Piece

/-! ## Builders -/

namespace Builder

/-- The start tags among the fragments, in order. -/
def startTags (b : Builder) : List StartTag :=
  Piece.startTags (ownPieces b.fragments.toList)

variable {b : Builder}

theorem isEmpty_iff : b.isEmpty = true ↔ b.fragments.toList = [] := by
  simp [isEmpty]

/-- Each end tag that is owed has a start tag of its name for its own. -/
theorem Nests.sublist_startTags (h : b.Nests) :
    b.stack.owed.Sublist (b.startTags.map StartTag.name).reverse := by
  have opened := Piece.sublist_of_scan h.scan_eq
  rwa [List.append_nil] at opened

theorem Nests.length_owed_le (h : b.Nests) : b.stack.owed.length ≤ b.startTags.length := by
  have opened := h.sublist_startTags.length_le
  rwa [List.length_reverse, List.length_map] at opened

/-- The start tag of the pending element is a fragment. -/
theorem Nests.pending_of_isEmpty (h : b.Nests) (he : b.isEmpty = true) : b.pending = none := by
  cases h with
  | settled hp hs => exact hp
  | pending element tag before after hp hf hpos hname hheld hs ha =>
    rw [isEmpty_iff.mp he] at hf
    simp at hf

theorem Nests.owed_of_isEmpty (h : b.Nests) (he : b.isEmpty = true) : b.stack.owed = [] := by
  have opened := h.sublist_startTags
  rw [startTags, isEmpty_iff.mp he, ownPieces_nil, Piece.startTags_nil] at opened
  exact List.sublist_nil.mp opened

theorem Nests.scopes_of_isEmpty (h : b.Nests) (he : b.isEmpty = true) :
    ∀ scope ∈ b.stack.scopes, scope.owes = none := by
  have held := (List.append_eq_nil_iff.mp (h.owed_of_isEmpty he)).2
  exact List.filterMap_eq_nil_iff.mp held

theorem Nests.ended_of_isEmpty (h : b.Nests) (he : b.isEmpty = true) : b.ended = [] := by
  rw [ended, isEmpty_iff.mp he, h.owed_of_isEmpty he, endTags_nil, List.append_nil]

/-! ## Renderings of nothing -/

theorem render_of_ended (h : b.ended = []) (st : Store) : b.render st = ⟨"", []⟩ := by
  rw [render, flatten_eq_walk, h, Store.walkFragments_nil]
  rfl

end Builder

theorem Handle.render_of_ended {h : Handle} {st : Store} (free : st.isEdited h.slot = false)
    (he : (st.builder h.slot).ended = []) : h.render st = ⟨"", []⟩ := by
  rw [Handle.render, Store.flattenSlot, Store.depthBound,
    Store.walkSlot_of_free List.not_mem_nil free, Store.walkBuilder_eq (Store.marks_walkSlot st _),
    ← Builder.ended, he, Store.walkFragments_nil]
  rfl

/-! ## Sessions -/

namespace Session

variable {s : Session}

theorem Reachable.nests (h : s.Reachable) : s.Every Builder.Nests where
  store i := (h.made.store i).nests
  own name b hb := (h.made.own name b hb).nests

/-- **Empty is empty.** Of every builder that a session reaches, in a variable or in a slot: without
fragments, no element is pending, no open scope owes an end tag, and the rendering is empty, now and
later. So a handle whose slot is empty is rendered as nothing. And a builder owes end tags for start
tags among its fragments only, the last one first, each for one of its own: it has at least as many
as it owes. -/
theorem empty_renders_nothing (h : s.Reachable) :
    s.Every (fun b =>
      (b.isEmpty = true → b.pending = none ∧ (∀ scope ∈ b.stack.scopes, scope.owes = none) ∧
        ∀ st, b.render st = ⟨"", []⟩) ∧
      b.stack.owed.Sublist (b.startTags.map StartTag.name).reverse ∧
      b.stack.owed.length ≤ b.startTags.length) ∧
    ∀ handle : Handle, s.store.isEmpty handle.slot = true →
      handle.render s.store = ⟨"", []⟩ := by
  have nests := h.nests
  constructor
  · refine nests.mono ?_
    intro b hb
    refine ⟨?_, hb.sublist_startTags, hb.length_owed_le⟩
    intro he
    exact ⟨hb.pending_of_isEmpty he, hb.scopes_of_isEmpty he,
      Builder.render_of_ended (hb.ended_of_isEmpty he)⟩
  · intro handle he
    obtain ⟨free, empty⟩ := Bool.and_eq_true_iff.mp he
    have nothing := (nests.store handle.slot).ended_of_isEmpty empty
    exact Handle.render_of_ended (by simpa using free) nothing

/-- A list is reset in a scope that is left open. The scope's end finds no scope any longer, and the
next scope is opened on nothing; then the builder becomes a slot. Beside it, a list item is held open
by a scope, with a line break and bold text in it. -/
def resetInScope : List Action :=
  [.perform (.create "a" none),
    .perform (.call "a" (.tag "ul")),
    .perform (.call "a" .enterScope),
    .perform (.call "a" (.tag "li")),
    .perform (.call "a" .reset),
    .leaveScope "a",
    .perform (.call "a" .enterScope),
    .perform (.share "a" "h"),
    .perform (.create "b" none),
    .perform (.call "b" (.tag "li")),
    .perform (.call "b" .enterScope),
    .perform (.call "b" (.tag "br")),
    .perform (.call "b" (.tag "b"))]

theorem empty_renders_nothing_resetInScope :
    (run {} resetInScope).Reachable ∧
    ((run {} resetInScope).store.isEmpty 0 = true ∧
      (⟨"E Builder", 0, false⟩ : Handle).render (run {} resetInScope).store = ⟨"", []⟩) ∧
    (∃ a, (run {} resetInScope).store.builder 0 = a ∧ a.isEmpty = true ∧ a.depth = 1 ∧
      a.pending = none ∧ ∀ scope ∈ a.stack.scopes, scope.owes = none) ∧
    ∃ b, (run {} resetInScope).builder? "b" = some b ∧ b.stack.owed = ["b", "li"] ∧
      b.startTags.map StartTag.name = ["li", "br", "b"] ∧
      b.stack.owed.length ≤ b.startTags.length := by
  have reached := Reachable.start.run resetInScope
  obtain ⟨every, handles⟩ := empty_renders_nothing reached
  have empty : (run {} resetInScope).store.isEmpty 0 = true := by decide +kernel
  have emptied : ((run {} resetInScope).store.builder 0).isEmpty = true := by decide +kernel
  have hb : (run {} resetInScope).builder? "b" = some
      { name := "E Builder"
        fragments := #[.piece (.startTag { name := "li", heldOpen := true }),
          .piece (.startTag { name := "br" }), .piece (.startTag { name := "b" })]
        stack :=
          { pending := some ⟨"b", 2⟩, scopes := [⟨some .optionalEnd, some "li"⟩] } } := by
    decide +kernel
  obtain ⟨pending, scopes, _⟩ := (every.store 0).1 emptied
  exact ⟨reached, ⟨empty, handles _ empty⟩,
    ⟨_, rfl, emptied, by decide +kernel, pending, scopes⟩,
    _, hb, by decide +kernel, by decide +kernel, (every.builder? hb).2.2⟩

end Session

end Hypertext
