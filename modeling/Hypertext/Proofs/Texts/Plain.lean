import Hypertext.Proofs.Builder.Made
import Hypertext.Proofs.Reading.Markup
import Hypertext.Proofs.Texts.Erase

/-! # Plain builders

With plain names, without elements of raw text and with no markup but the doctype, whatever a
builder writes is a tag or has neither `<` nor `>` in it. -/

namespace Hypertext

open Reading (Harmless)

/-- Plain names, no element whose text is raw, and no markup but the doctype. -/
def Policy.plain : Policy where
  tags identifier := PlainName (htmlName identifier) ∧
    ElementKind.ofName (htmlName identifier) ∉ [.script, .style]
  attributes identifier := PlainName (htmlName identifier)
  markup html := Piece.text html = doctype

namespace Policy

/-- A document is made of plain names. -/
theorem plain_documents : plain.Documents where
  doctype := rfl
  tags := by
    simp only [plain]
    decide
  attributes := by
    simp only [plain]
    decide

theorem plain_not_script : ¬ plain.tags "script" := fun h => h.2 (by decide)

theorem plain_not_style : ¬ plain.tags "style" := fun h => h.2 (by decide)

theorem plain_not_empty : ¬ plain.markup "" := by
  rw [plain]
  decide

theorem plain_not_comments (text : String) : ¬ plain.comments text := by
  intro h
  have letters := congrArg String.toList (Piece.text.inj h)
  simp at letters

end Policy

/-! ## Texts -/

theorem harmless_escapeText (text : String) : Harmless (Escape.escapeText text).toList := by
  intro c hc
  rw [Escape.toList_escapeText] at hc
  obtain ⟨d, _, hd⟩ := List.mem_flatMap.mp hc
  exact ⟨Reading.textReference_ne hd (by simp) (by simp),
    Reading.textReference_ne hd (by simp) (by simp)⟩

/-- The text inside the element is raw. -/
def ElementKind.Raw (kind : Option ElementKind) : Prop :=
  kind = some .script ∨ kind = some .style

instance (kind : Option ElementKind) : Decidable (ElementKind.Raw kind) :=
  inferInstanceAs (Decidable (_ ∨ _))

theorem Builder.escapeFor_of_not_raw {kind : Option ElementKind} (h : ¬ ElementKind.Raw kind)
    (text : String) : escapeFor kind text = Escape.escapeText text := by
  unfold escapeFor
  split
  · exact absurd (.inl rfl) h
  · exact absurd (.inr rfl) h
  · rfl

theorem eraseMarkup_of_harmless {html : String} (h : Harmless html.toList) :
    eraseMarkup html = "" := by
  refine if_neg ?_
  intro hd
  cases hd
  exact (h '<' (by decide)).1 rfl

namespace Builder

/-- The fragments are plain, and so are the end tags that are owed; text that comes next is not
raw. -/
structure Plain (b : Builder) : Prop where
  fragments : ∀ p, .piece p ∈ b.fragments.toList → p.Plain
  pending : ∀ element ∈ b.stack.pending, PlainName element.name ∧ ¬ ElementKind.Raw element.kind
  scopes : ∀ scope ∈ b.stack.scopes,
    (∀ name ∈ scope.owes, PlainName name) ∧ ¬ ElementKind.Raw scope.kind

namespace Plain

variable {b : Builder}

theorem owed (h : b.Plain) : ∀ name ∈ b.stack.owed, PlainName name := by
  intro name hn
  rcases List.mem_append.mp hn with hn | hn
  · obtain ⟨element, he, hi⟩ := Option.bind_eq_some_iff.mp (Option.mem_toList.mp hn)
    split at hi
    · cases hi
      exact (h.pending element he).1
    · cases hi
  · obtain ⟨scope, hs, ho⟩ := List.mem_filterMap.mp hn
    exact (h.scopes scope hs).1 name ho

theorem textKind (h : b.Plain) : ¬ ElementKind.Raw b.stack.textKind := by
  unfold TagStack.textKind
  cases hp : b.stack.pending with
  | some element => exact (h.pending element hp).2
  | none =>
    cases hs : b.stack.scopes with
    | nil => simp [ElementKind.Raw]
    | cons scope scopes => exact (h.scopes scope (by simp [hs])).2

theorem endTags {names : List String} (h : ∀ name ∈ names, PlainName name) :
    ∀ p, .piece p ∈ Builder.endTags names → p.Plain := by
  intro p hp
  obtain ⟨name, hn, he⟩ := List.mem_map.mp hp
  cases he
  exact h name hn

/-- Plain fragments can come behind. -/
theorem fragments_append {fs gs : List Fragment} (hf : ∀ p, .piece p ∈ fs → p.Plain)
    (hg : ∀ p, .piece p ∈ gs → p.Plain) : ∀ p, .piece p ∈ fs ++ gs → p.Plain := by
  intro p hp
  rcases List.mem_append.mp hp with hp | hp
  · exact hf p hp
  · exact hg p hp

theorem ended (h : b.Plain) : ∀ p, .piece p ∈ b.ended → p.Plain :=
  fragments_append h.fragments (endTags h.owed)

theorem extend {c : Builder} {more : List Fragment} (h : b.Plain) (hst : c.stack = b.stack)
    (hf : c.fragments.toList = b.fragments.toList ++ more)
    (hm : ∀ p, .piece p ∈ more → p.Plain) : c.Plain where
  fragments := by
    rw [hf]
    exact fragments_append h.fragments hm
  pending := by
    rw [hst]
    exact h.pending
  scopes := by
    rw [hst]
    exact h.scopes

theorem pushPiece (h : b.Plain) {p : Piece} (hp : p.Plain) : (b.pushPiece p).Plain :=
  h.extend rfl (toList_pushPiece b p) fun q hq => by
    cases List.mem_singleton.mp hq
    exact hp

theorem pushText (h : b.Plain) (text : String) : (b.pushText text).Plain := by
  refine h.pushPiece (.inr ?_)
  rw [escapeFor_of_not_raw h.textKind]
  exact harmless_escapeText text

theorem close (h : b.Plain) : b.close.Plain where
  fragments := by
    rw [toList_close]
    exact fragments_append h.fragments
      (endTags fun name hn => h.owed name (List.mem_append_left _ hn))
  pending element he := by simp at he
  scopes := by
    rw [stack_close]
    exact h.scopes

theorem tag (h : b.Plain) {identifier : String} (ht : Policy.plain.tags identifier) :
    (b.tag identifier).Plain where
  fragments := by
    have start : (Piece.startTag { name := htmlName identifier }).Plain :=
      ⟨ht.1, fun a ha => nomatch ha⟩
    exact (h.close.pushPiece start).fragments
  pending element he := by
    cases he
    refine ⟨ht.1, fun raw => ht.2 ?_⟩
    rcases raw with raw | raw
    · exact Option.some.inj raw ▸ List.mem_cons_self
    · exact Option.some.inj raw ▸ List.mem_cons_of_mem _ List.mem_cons_self
  scopes := h.close.scopes

theorem pendingTag? (h : b.Plain) {element : OpenTag} {tag : StartTag}
    (ht : b.pendingTag? = some (element, tag)) : (Piece.startTag tag).Plain := by
  obtain ⟨_, _, ht⟩ := Option.bind_eq_some_iff.mp ht
  obtain ⟨_, ht, he⟩ := Option.map_eq_some_iff.mp ht
  cases he
  unfold startTagAt? at ht
  split at ht
  · rename_i hf
    cases ht
    exact h.fragments _ (Array.mem_toList_iff.mpr (Array.mem_of_getElem? hf))
  · cases ht

theorem replaceTag (h : b.Plain) (element : OpenTag) {tag : StartTag}
    (ht : (Piece.startTag tag).Plain) : (b.replaceTag element tag).Plain where
  fragments p hp := by
    rw [Builder.replaceTag, Array.toList_setIfInBounds] at hp
    rcases List.mem_or_eq_of_mem_set hp with hp | hp
    · exact h.fragments p hp
    · cases hp
      exact ht
  pending := h.pending
  scopes := h.scopes

theorem giveAttributes (h : b.Plain) {given : Attributes} (hg : Policy.plain.Permits given) :
    (b.giveAttributes given).value.Plain := by
  unfold Builder.giveAttributes
  split
  · exact h
  · split
    · rename_i element tag ht
      obtain ⟨hn, ha⟩ := h.pendingTag? ht
      refine h.replaceTag element ⟨hn, fun a hm => ?_⟩
      rcases List.mem_append.mp hm with hm | hm
      · exact ha a hm
      · exact hg a hm
    · exact h

/-- The element that becomes a scope was plain when it was pending. -/
theorem enter (h : b.Plain) : ({ b with stack := b.stack.enter } : Builder).Plain where
  fragments := h.fragments
  pending element he := nomatch he
  scopes scope hs := by
    rcases List.mem_cons.mp hs with hs | hs
    · rw [hs]
      refine ⟨fun name hn => ?_, h.textKind⟩
      obtain ⟨element, he, hn⟩ := Option.bind_eq_some_iff.mp hn
      split at hn
      · cases hn
      · cases hn
        exact (h.pending element he).1
    · exact h.scopes scope hs

theorem enterScope (h : b.Plain) : b.enterScope.value.Plain := by
  unfold Builder.enterScope
  cases ht : b.pendingTag? with
  | none => exact h.enter
  | some found =>
    obtain ⟨element, tag⟩ := found
    obtain ⟨hn, ha⟩ := h.pendingTag? ht
    have held : (Piece.startTag { tag with heldOpen := true }).Plain := ⟨hn, ha⟩
    exact ⟨(h.replaceTag element held).fragments, h.enter.pending, h.enter.scopes⟩

theorem leaveScope (h : b.Plain) : b.leaveScope.Plain where
  fragments := by
    rw [toList_leaveScope]
    refine fragments_append h.fragments (endTags fun name hn => h.owed name ?_)
    rcases List.mem_append.mp hn with hn | hn
    · exact List.mem_append_left _ hn
    · obtain ⟨scope, hs, ho⟩ := Option.bind_eq_some_iff.mp (Option.mem_toList.mp hn)
      exact List.mem_append_right _ (List.mem_filterMap.mpr ⟨scope, List.mem_of_head? hs, ho⟩)
  pending element he := by simp [stack_leaveScope] at he
  scopes scope hs := by
    rw [stack_leaveScope] at hs
    exact h.scopes scope (List.mem_of_mem_tail hs)

theorem snapshot (h : b.Plain) : b.snapshot.Plain where
  fragments := by
    have ended : b.snapshot.fragments.toList = b.ended := toList_pushEnds b b.stack.owed
    rw [ended]
    exact h.ended
  pending _ he := nomatch he
  scopes _ hs := nomatch hs

end Plain

theorem Made.plain {b : Builder} (h : b.Made .plain) : b.Plain := by
  induction h with
  | new name => exact { fragments := nofun, pending := nofun, scopes := nofun }
  | tag ht _ ih => exact ih.tag ht
  | giveAttributes hg _ ih => exact ih.giveAttributes hg
  | pushText text _ ih => exact ih.pushText text
  | pushMarkup hm _ ih => exact ih.pushPiece (.inl hm)
  | @adopt b snippet _ _ ih ihs =>
    exact ih.extend (stack_adopt b snippet) (toList_adopt b snippet) ihs.ended
  | pushSlot h _ ih => exact ih.extend rfl (toList_push _ _) (by simp)
  | withPlaceholders r _ ih => exact ⟨ih.fragments, ih.pending, ih.scopes⟩
  | close _ ih => exact ih.close
  | enterScope _ ih => exact ih.enterScope
  | leaveScope _ ih => exact ih.leaveScope
  | snapshot _ ih => exact ih.snapshot

end Builder

end Hypertext
