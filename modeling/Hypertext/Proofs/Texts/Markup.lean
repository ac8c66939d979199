import Hypertext.Proofs.Texts.Runs

/-! # No text changes the markup

What plain builders come to is read as tags with nothing but text between them, and the tags do not
depend on texts. -/

namespace Hypertext

open Reading (Tag readMarkup)

/-! ## Pieces of plain builders -/

namespace Store

variable {st : Store}

theorem plain_walkFragments {enter : Handle → Marks → Walk}
    (he : ∀ h marks, ∀ p ∈ (enter h marks).pieces, p.Plain) {fs : List Fragment}
    (hf : ∀ p, .piece p ∈ fs → p.Plain) (marks : Marks) :
    ∀ p ∈ (walkFragments enter fs marks).pieces, p.Plain := by
  induction fs generalizing marks with
  | nil => exact fun _ hp => nomatch hp
  | cons f fs ih =>
    have rest : ∀ p, .piece p ∈ fs → p.Plain := fun p hp => hf p (List.mem_cons_of_mem _ hp)
    cases f with
    | piece p => exact List.forall_mem_cons.mpr ⟨hf p List.mem_cons_self, ih rest marks⟩
    | slot h =>
      intro p hp
      rcases List.mem_append.mp hp with hp | hp
      · exact he h marks p hp
      · exact ih rest _ p hp

theorem Made.plain_walkSlot (hs : st.Made .plain) (fuel : Nat) (h : Handle) (marks : Marks) :
    ∀ p ∈ (st.walkSlot fuel h marks).pieces, p.Plain := by
  refine @pieces_walkSlot (fun ps => ∀ p ∈ ps, p.Plain) st (List.forall_mem_nil _) ?_ fuel h marks
  intro i enter he marks
  exact plain_walkFragments he (hs i).plain.ended marks

theorem Made.plain_flatten (hs : st.Made .plain) {b : Builder} (hb : b.Made .plain) :
    ∀ p ∈ (st.flatten b).pieces, p.Plain := by
  rw [Builder.flatten_eq_walk]
  exact plain_walkFragments (hs.plain_walkSlot _) hb.plain.ended []

end Store

/-! ## Tags without texts -/

namespace Piece

theorem text_eraseMarkup_eq_doctype (html : String) :
    text (eraseMarkup html) = doctype ↔ text html = doctype := by
  unfold eraseMarkup
  split
  · rfl
  · exact iff_of_false (by decide) ‹_›

theorem name_written?_erase (a : Attribute) :
    a.erase.written?.map (·.1) = a.written?.map (·.1) := by
  obtain ⟨identifier, value⟩ := a
  cases value <;> rfl

theorem tag?_erase (p : Piece) : p.erase.tag? = p.tag? := by
  cases p with
  | startTag tag =>
    simp only [erase, tag?, StartTag.erase, Attributes.erase, List.filterMap_map,
      List.map_filterMap, Function.comp_def, name_written?_erase]
  | endTag name => rfl
  | text html => simp only [erase, tag?, text_eraseMarkup_eq_doctype]

/-- Rows of plain pieces that are the same but for texts are read as the same tags. -/
theorem readMarkup_alike {ps ps' : List Piece} (h : ps.map erase = ps'.map erase)
    (hp : ∀ p ∈ ps, p.Plain) (hp' : ∀ p ∈ ps', p.Plain) :
    ∃ tags, readMarkup (render ps) = some tags ∧ readMarkup (render ps') = some tags := by
  refine ⟨ps.filterMap tag?, readMarkup_render hp, ?_⟩
  rw [readMarkup_render hp']
  have tags (ps : List Piece) : ps.filterMap tag? = (ps.map erase).filterMap tag? := by
    rw [List.filterMap_map]
    exact congrArg (List.filterMap · ps) (funext fun p => (tag?_erase p).symm)
  rw [tags ps', ← h, ← tags ps]

end Piece

namespace Session

/-- **No text changes the markup.** Of two runs that differ in nothing but texts, with plain names
and without raw markup, every builder and every slot is read as the same tags: the same names with
the same attributes in the same order, and neither `<` nor `>` outside of them. -/
theorem texts_keep_markup {actions actions' : List Action}
    (same : List.Forall₂ Action.Alike actions actions')
    (plain : ∀ a ∈ actions, a.Permitted .plain) (plain' : ∀ a ∈ actions', a.Permitted .plain) :
    (∀ name, Option.Rel
      (fun b b' : Builder => ∃ tags,
        readMarkup (b.render (run {} actions).store).value = some tags ∧
        readMarkup (b'.render (run {} actions').store).value = some tags)
      ((run {} actions).builder? name) ((run {} actions').builder? name)) ∧
    ∀ handle : Handle, ∃ tags,
      readMarkup (handle.render (run {} actions).store).value = some tags ∧
      readMarkup (handle.render (run {} actions').store).value = some tags := by
  have alike : (run {} actions).Alike (run {} actions') :=
    Alike.run same plain plain' rfl .start .start
  have made : (run {} actions).Made .plain := Session.Made.start.run plain
  have made' : (run {} actions').Made .plain := Session.Made.start.run plain'
  constructor
  · intro name
    have found := alike.builder? name
    cases hb : (run {} actions).builder? name <;> cases hb' : (run {} actions').builder? name <;>
      rw [hb, hb'] at found <;> cases found
    · exact .none
    · rename_i b b' hbb
      have walks := Store.flatten_erase (run {} actions).store b
      rw [hbb, alike.store, Store.flatten_erase] at walks
      exact .some (Piece.readMarkup_alike (congrArg Walk.pieces walks.symm)
        (made.store.plain_flatten (made.builder? hb))
        (made'.store.plain_flatten (made'.builder? hb')))
  · intro handle
    have walks := Store.flattenSlot_erase (run {} actions).store handle
    rw [alike.store, Store.flattenSlot_erase] at walks
    exact Piece.readMarkup_alike (congrArg Walk.pieces walks.symm)
      (made.store.plain_walkSlot _ handle []) (made'.store.plain_walkSlot _ handle [])

/-- A paragraph with a title, both texts. -/
def titledParagraph (title text : String) : List Action :=
  [.perform (.create "b" none),
    .perform (.call "b" (.tag "p")),
    .perform (.call "b" (.attributes [("title", .literal (.text title))])),
    .perform (.call "b" (.content (.text (.literal text))))]

theorem titledParagraph_alike (title title' text text' : String) :
    List.Forall₂ Action.Alike (titledParagraph title text) (titledParagraph title' text') :=
  .cons (.perform rfl) <| .cons (.perform ⟨rfl, .tag "p"⟩) <|
    .cons (.perform ⟨rfl, .attributes (.cons ⟨rfl, .text title title'⟩ .nil)⟩) <|
    .cons (.perform ⟨rfl, .content (.text text text')⟩) .nil

theorem titledParagraph_permitted (title text : String) :
    ∀ a ∈ titledParagraph title text, a.Permitted .plain := by
  have tag : Policy.plain.tags "p" := ⟨by decide, by decide⟩
  have titled : Policy.plain.attributes "title" := by
    rw [Policy.plain]
    decide
  have given : ∀ a ∈ [("title", ValueExpr.literal (.text title))], Policy.plain.attributes a.1 :=
    List.forall_mem_singleton.mpr titled
  exact List.forall_mem_cons.mpr ⟨trivial, List.forall_mem_cons.mpr ⟨tag,
    List.forall_mem_cons.mpr ⟨given, List.forall_mem_singleton.mpr trivial⟩⟩⟩

theorem texts_keep_markup_titledParagraph :
    List.Forall₂ Action.Alike (titledParagraph "x" "y") (titledParagraph "\" id=\"x" "<b>") ∧
    (∀ a ∈ titledParagraph "x" "y", a.Permitted .plain) ∧
    (∀ a ∈ titledParagraph "\" id=\"x" "<b>", a.Permitted .plain) ∧
    ∃ b b' tags,
      (run {} (titledParagraph "x" "y")).builder? "b" = some b ∧
      (run {} (titledParagraph "\" id=\"x" "<b>")).builder? "b" = some b' ∧
      readMarkup (b.render (run {} (titledParagraph "x" "y")).store).value = some tags ∧
      readMarkup (b'.render (run {} (titledParagraph "\" id=\"x" "<b>")).store).value =
        some tags := by
  have same := titledParagraph_alike "x" "\" id=\"x" "y" "<b>"
  have plain := titledParagraph_permitted "x" "y"
  have plain' := titledParagraph_permitted "\" id=\"x" "<b>"
  have bound : ((run {} (titledParagraph "x" "y")).builder? "b").isSome = true := by
    decide +kernel
  have read := (texts_keep_markup same plain plain').1 "b"
  refine ⟨same, plain, plain', ?_⟩
  cases hb : (run {} (titledParagraph "x" "y")).builder? "b" with
  | none => simp [hb] at bound
  | some b =>
    cases hb' : (run {} (titledParagraph "\" id=\"x" "<b>")).builder? "b" with
    | none => rw [hb, hb'] at read; cases read
    | some b' =>
      rw [hb, hb'] at read
      cases read with
      | some h =>
        obtain ⟨tags, h, h'⟩ := h
        exact ⟨b, b', tags, rfl, rfl, h, h'⟩

end Session

end Hypertext
