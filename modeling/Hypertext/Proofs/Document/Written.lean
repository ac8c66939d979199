import Hypertext.Proofs.Document.Parts
import Hypertext.Proofs.Lives.Pending
import Hypertext.Proofs.Rendering.Endings

/-! # Plain markup

As long as a builder has no slots and no scopes, what it renders can be said as a text, however the
element that comes next closes the one before. There are two states to be told apart: nothing is
missing, or an element is pending behind finished markup. -/

namespace Hypertext.Builder

open ElementKind (ofName)

variable {b : Builder} {html name attributes content : String}

/-- The builder comes to the markup, with no end tag missing. -/
structure Reads (html : String) (b : Builder) : Prop where
  pieces : ∃ ps : List Piece, b.fragments.toList = ps.map .piece ∧ Piece.render ps = html
  owed : b.stack.owed = []
  scopes : b.stack.scopes = []

/-- Behind the markup, an element is pending, with these attributes and this content. -/
structure Open (html name attributes content : String) (b : Builder) : Prop where
  pieces : ∃ (ps : List Piece) (tag : StartTag) (qs : List Piece),
    b.fragments.toList = ps.map .piece ++ .piece (.startTag tag) :: qs.map .piece ∧
      b.pending = some ⟨name, ps.length⟩ ∧ tag.name = name ∧
      Piece.render ps = html ∧ tag.attributes.html = attributes ∧ Piece.render qs = content
  scopes : b.stack.scopes = []

/-! ## Beginning an element -/

theorem Reads.impliedEnd (h : b.Reads html) : b.stack.impliedEnd = none := by
  have owed := h.owed
  rw [TagStack.owed, List.append_eq_nil_iff] at owed
  exact Option.toList_eq_nil_iff.mp owed.1

/-- The element before needs no end tag. -/
theorem Reads.tag (h : b.Reads html) (identifier : String) :
    (b.tag identifier).Open html (htmlName identifier) "" "" := by
  obtain ⟨ps, fragments, rendered⟩ := h.pieces
  have closed : b.close.fragments.toList = ps.map .piece := by
    rw [toList_close, h.impliedEnd, fragments]
    simp
  refine ⟨⟨ps, { name := htmlName identifier }, [], ?_, ?_, rfl, rendered, rfl, rfl⟩, ?_⟩
  · rw [toList_tag, h.impliedEnd, fragments]
    simp
  · have size : b.close.fragments.size = ps.length := by
      rw [← Array.length_toList, closed, List.length_map]
    show some (OpenTag.mk (htmlName identifier) b.close.fragments.size) = _
    rw [size]
  · show b.close.stack.scopes = []
    rw [stack_close]
    exact h.scopes

/-- Attributes come behind those that the element has, and nothing is reported. -/
theorem Open.giveAttributes (h : b.Open html name attributes content) (more : Attributes) :
    ∃ c, b.giveAttributes more = ⟨c, []⟩ ∧ c.Open html name (attributes ++ more.html) content := by
  obtain ⟨ps, tag, qs, fragments, pending, named, rendered, shown, inside⟩ := h.pieces
  have position : ps.length = (ps.map Fragment.piece).length := (List.length_map _).symm
  have shows : b.Shows name tag.attributes.entries := by
    intro element hp
    cases pending.symm.trans hp
    refine ⟨rfl, tag, ?_, named, rfl⟩
    show b.startTagAt? ps.length = some tag
    rw [position]
    exact startTagAt?_of_toList fragments
  obtain ⟨tag', named', shown', hgive⟩ := shows.giveAttributes_eq pending more
  refine ⟨_, hgive, ⟨ps, tag', qs, toList_replaceTag fragments position tag', pending, named',
    rendered, ?_, inside⟩, h.scopes⟩
  rw [shown', ← shown]
  exact Attributes.html_append tag.attributes more

/-- Text is escaped for the element. -/
theorem Open.pushText (h : b.Open html name attributes content) (text : String) :
    (b.pushText text).Open html name attributes
      (content ++ escapeFor (some (ofName name)) text) := by
  obtain ⟨ps, tag, qs, fragments, pending, named, rendered, shown, inside⟩ := h.pieces
  have kind : b.stack.textKind = some (ofName name) := by
    rw [TagStack.textKind, show b.stack.pending = some ⟨name, ps.length⟩ from pending]
    rfl
  refine ⟨⟨ps, tag, qs ++ [.text (escapeFor (some (ofName name)) text)], ?_, pending, named,
    rendered, shown, ?_⟩, h.scopes⟩
  · rw [Builder.pushText, toList_pushPiece, fragments, kind]
    simp
  · rw [Piece.render_append, inside]
    simp [Piece.render, Piece.html]

/-! ## Ending it -/

/-- The element as markup, up to its end tag. -/
def elementHtml (name attributes content : String) : String :=
  "<" ++ name ++ attributes ++ ">" ++ content

theorem Open.render_pieces {tag : StartTag} {ps qs : List Piece} (named : tag.name = name)
    (rendered : Piece.render ps = html) (shown : tag.attributes.html = attributes)
    (inside : Piece.render qs = content) :
    Piece.render (ps ++ .startTag tag :: qs) = html ++ elementHtml name attributes content := by
  rw [Piece.render_append, Piece.render_cons, rendered, inside, Piece.html, StartTag.html, named,
    shown, elementHtml, String.append_assoc]

/-- An element without an end tag has nothing missing while it is pending. -/
theorem Open.reads (h : b.Open html name attributes content)
    (hk : (ofName name).requiresEndTag = false) :
    b.Reads (html ++ elementHtml name attributes content) := by
  obtain ⟨ps, tag, qs, fragments, pending, named, rendered, shown, inside⟩ := h.pieces
  have implied : b.stack.impliedEnd = none := by
    rw [TagStack.impliedEnd, show b.stack.pending = some ⟨name, ps.length⟩ from pending]
    simp [OpenTag.kind, hk]
  refine ⟨⟨ps ++ .startTag tag :: qs, ?_, Open.render_pieces named rendered shown inside⟩, ?_,
    h.scopes⟩
  · rw [fragments]
    simp
  · rw [TagStack.owed, implied, h.scopes]
    rfl

/-- An element with an end tag gets it when it is closed. -/
theorem Open.close (h : b.Open html name attributes content)
    (hk : (ofName name).requiresEndTag = true) :
    b.close.Reads (html ++ (elementHtml name attributes content ++ "</" ++ name ++ ">")) := by
  obtain ⟨ps, tag, qs, fragments, pending, named, rendered, shown, inside⟩ := h.pieces
  have implied : b.stack.impliedEnd = some name := by
    rw [TagStack.impliedEnd, show b.stack.pending = some ⟨name, ps.length⟩ from pending]
    simp [OpenTag.kind, hk]
  refine ⟨⟨ps ++ .startTag tag :: qs ++ [.endTag name], ?_, ?_⟩, ?_, ?_⟩
  · rw [toList_close, implied, fragments]
    simp
  · rw [Piece.render_append, Open.render_pieces named rendered shown inside]
    simp [Piece.render, Piece.html, String.append_assoc]
  · rw [stack_close, TagStack.owed, h.scopes]
    rfl
  · rw [stack_close]
    exact h.scopes

theorem Reads.close (h : b.Reads html) : b.close.Reads html := by
  obtain ⟨ps, fragments, rendered⟩ := h.pieces
  refine ⟨⟨ps, ?_, rendered⟩, ?_, ?_⟩
  · rw [toList_close, h.impliedEnd, fragments]
    simp
  · rw [stack_close, TagStack.owed, h.scopes]
    rfl
  · rw [stack_close]
    exact h.scopes

/-! ## Rendering -/

/-- What the builder comes to is what it renders, whatever the slots hold. -/
theorem Reads.render (h : b.Reads html) (st : Store) : b.render st = ⟨html, []⟩ := by
  obtain ⟨ps, fragments, rendered⟩ := h.pieces
  have ended : b.ended = ps.map .piece := by
    rw [Builder.ended, fragments, h.owed, endTags_nil, List.append_nil]
  rw [Builder.render, flatten_eq_walk, ended, Store.walkFragments_pieces]
  show Logged.mk (Piece.render ps) [] = _
  rw [rendered]

end Hypertext.Builder
