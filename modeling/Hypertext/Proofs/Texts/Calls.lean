import Hypertext.Proofs.Texts.Plain
import Hypertext.Proofs.Texts.Stores

/-! # Calls without texts

A permitted call on plain builders comes to what the same call comes to with the texts taken out,
and it is refused if that is. -/

namespace Hypertext

/-- The call with its parts changed. -/
def BuilderCall.map {γ δ α β τ υ : Type} (f : γ → δ) (g : α → β) (h : τ → υ) :
    BuilderCall γ α τ → BuilderCall δ β υ
  | .tag identifier => .tag identifier
  | .attributes given => .attributes (given.map fun a => (a.1, g a.2))
  | .content c => .content (f c)
  | .contents cs => .contents (cs.map f)
  | .append c => .append (f c)
  | .close => .close
  | .script code => .script code
  | .style rules => .style rules
  | .comment text => .comment (h text)
  | .enterScope => .enterScope
  | .place name => .place name
  | .placeWith name c => .placeWith name (f c)
  | .set name c => .set name (f c)
  | .clear name => .clear name
  | .reset => .reset

def HandleCall.map {γ δ : Type} (f : γ → δ) : HandleCall γ → HandleCall δ
  | .set c => .set (f c)
  | .add c => .add (f c)
  | .clear => .clear

abbrev BuilderCall.erase :
    BuilderCall Content AttributeValue String → BuilderCall Content AttributeValue String :=
  map Content.erase AttributeValue.erase id

abbrev HandleCall.erase : HandleCall Content → HandleCall Content :=
  map Content.erase

/-! ## Content -/

namespace Builder

variable {b : Builder} {c : Content} {st : Store}

theorem erase_pushText (h : ¬ ElementKind.Raw b.stack.textKind) (text : String) :
    (b.pushText text).erase = b.erase.pushText "" := by
  have empty : escapeFor b.stack.textKind "" = "" := by
    rw [escapeFor_of_not_raw h]
    rfl
  rw [pushText, pushText, erase_pushPiece, Piece.erase, stack_erase, empty,
    escapeFor_of_not_raw h, eraseMarkup_of_harmless (harmless_escapeText text)]

theorem erase_pushSlot (b : Builder) (h : Handle) (st : Store) :
    (b.pushSlot h st).value.erase = (b.erase.pushSlot h st.erase).value := by
  unfold pushSlot
  rw [Store.placeholders_erase]
  split <;> exact erase_push _ _

theorem erase_append (hb : b.Plain) (c : Content) (st : Store) :
    (b.append c st).value.erase = (b.erase.append c.erase st.erase).value := by
  cases c with
  | empty => rfl
  | text text => exact erase_pushText hb.textKind text
  | markup html => exact erase_pushPiece b _
  | snippet snippet => exact erase_adopt b snippet
  | slot h => exact erase_pushSlot b h st

theorem erase_content (hb : b.Plain) (c : Content) (st : Store) :
    (b.content c st).value.erase = (b.erase.content c.erase st.erase).value := by
  simp only [content, Logged.value_map, erase_close, erase_append hb]

theorem erase_contents {cs : List Content} (hb : b.Made .plain) (hc : ∀ c ∈ cs, c.Made .plain)
    (st : Store) :
    (b.contents cs st).value.erase = (b.erase.contents (cs.map Content.erase) st.erase).value := by
  simp only [contents, Logged.value_map, erase_close]
  congr 1
  induction cs generalizing b with
  | nil => rfl
  | cons c cs ih =>
    obtain ⟨hc, hcs⟩ := List.forall_mem_cons.mp hc
    rw [List.foldlM_cons, List.map_cons, List.foldlM_cons, Logged.value_bind, Logged.value_bind,
      ih (hb.append hc st) hcs, erase_append hb.plain]

end Builder

/-! ## Handles -/

/-- The outcome without texts; what is logged does not count. -/
structure Outcome.ErasesTo {σ : Type} (erase : σ → σ) (o o' : Outcome σ) : Prop where
  state : erase o.state = o'.state
  refusal : o.refusal = o'.refusal

namespace Handle

variable {st : Store}

theorem refusal?_erase (h : Handle) (c : Content) (st : Store) :
    h.refusal? c.erase st.erase = h.refusal? c st := by
  simp [refusal?, Content.leadsTo_erase]

theorem erase_add (hs : st.Made .plain) (h : Handle) (c : Content) :
    (h.add c st).ErasesTo Store.erase (h.add c.erase st.erase) := by
  unfold add
  rw [refusal?_erase]
  split
  · exact ⟨rfl, rfl⟩
  · refine ⟨?_, rfl⟩
    simp only [Store.builder_erase, Store.erase_put, Builder.erase_content (hs h.slot).plain]

theorem erase_set (h : Handle) (c : Content) (st : Store) :
    (h.set c st).ErasesTo Store.erase (h.set c.erase st.erase) := by
  unfold set
  rw [refusal?_erase]
  split
  · exact ⟨rfl, rfl⟩
  · refine ⟨?_, rfl⟩
    have empty : ((st.builder h.slot).reset).Plain := (Builder.Made.reset _).plain
    simp only [Store.builder_erase, Store.erase_put, Builder.erase_content empty,
      Builder.erase_reset]

theorem erase_clear (h : Handle) (st : Store) :
    (h.clear st).ErasesTo Store.erase (h.clear st.erase) := by
  unfold clear
  rw [Store.isEdited_erase]
  split
  · exact ⟨rfl, rfl⟩
  · refine ⟨?_, rfl⟩
    simp only [Store.builder_erase, Store.erase_put, Builder.erase_reset]

end Handle

/-! ## Placeholders -/

theorem Registry.declare_erase (r : Registry) (name : String) (st : Store) :
    r.declare name st.erase =
      (r.declare name st).map fun d => { d with store := d.store.erase } := by
  unfold declare
  rw [Store.size_erase]
  split
  · rfl
  · simp [Except.map, Store.erase_allocate]

abbrev eraseBoth : Builder × Store → Builder × Store :=
  Prod.map Builder.erase Store.erase

namespace Builder

variable {b : Builder} {st : Store}

theorem erase_place (b : Builder) (name : String) (st : Store) :
    (b.place name st).ErasesTo eraseBoth (b.erase.place name st.erase) := by
  unfold place
  rw [placeholders_erase, Registry.declare_erase]
  cases b.placeholders.declare name st with
  | error e => exact ⟨rfl, rfl⟩
  | ok d => exact ⟨Prod.ext (erase_push { b with placeholders := d.registry } _) rfl, rfl⟩

theorem erase_placeWith (hs : st.Made .plain) (b : Builder) (name : String) (c : Content) :
    (b.placeWith name c st).ErasesTo eraseBoth (b.erase.placeWith name c.erase st.erase) := by
  unfold placeWith
  rw [placeholders_erase, Registry.declare_erase]
  cases hd : b.placeholders.declare name st with
  | error e => exact ⟨rfl, rfl⟩
  | ok d =>
    have filled := d.handle.erase_add (hs.declare hd) c
    simp only [Except.map, ← filled.refusal]
    split
    · exact ⟨Prod.ext rfl filled.state, rfl⟩
    · exact ⟨Prod.ext (erase_push { b with placeholders := d.registry } _) filled.state, rfl⟩

theorem placeholder_erase (b : Builder) (name : String) :
    b.erase.placeholder name = b.placeholder name := rfl

theorem erase_setNamed (b : Builder) (name : String) (c : Content) (st : Store) :
    (b.set name c st).ErasesTo Store.erase (b.erase.set name c.erase st.erase) := by
  unfold set
  rw [placeholder_erase]
  split
  · exact ⟨rfl, rfl⟩
  · exact Handle.erase_set _ c st

theorem erase_clearNamed (b : Builder) (name : String) (st : Store) :
    (b.clear name st).ErasesTo Store.erase (b.erase.clear name st.erase) := by
  unfold clear
  rw [placeholder_erase]
  split
  · exact ⟨rfl, rfl⟩
  · exact Handle.erase_clear _ st

end Builder

/-- A permitted call comes to the call without texts. -/
theorem BuilderCall.erase_run {call : BuilderCall Content AttributeValue String} {b : Builder}
    {st : Store} (hc : call.Made .plain) (hb : b.Made .plain) (hs : st.Made .plain) :
    (call.run b st).ErasesTo eraseBoth (call.erase.run b.erase st.erase) := by
  cases call with
  | tag identifier => exact ⟨Prod.ext (b.erase_tag identifier) rfl, rfl⟩
  | attributes given =>
    refine ⟨Prod.ext ((b.erase_giveAttributes _).trans ?_) rfl, rfl⟩
    simp [run, BuilderCall.erase, map, Outcome.ofLogged, Attributes.erase, Attribute.erase,
      Function.comp_def]
  | content c => exact ⟨Prod.ext (b.erase_content hb.plain c st) rfl, rfl⟩
  | contents cs => exact ⟨Prod.ext (b.erase_contents hb hc st) rfl, rfl⟩
  | append c => exact ⟨Prod.ext (b.erase_append hb.plain c st) rfl, rfl⟩
  | close => exact ⟨Prod.ext b.erase_close rfl, rfl⟩
  | script code => exact absurd hc Policy.plain_not_script
  | style rules => exact absurd hc Policy.plain_not_style
  | comment text => exact absurd hc (Policy.plain_not_comments text)
  | enterScope => exact ⟨Prod.ext b.erase_enterScope rfl, rfl⟩
  | place name => exact b.erase_place name st
  | placeWith name c => exact b.erase_placeWith hs name c
  | set name c =>
    have erased := b.erase_setNamed name c st
    exact ⟨Prod.ext rfl erased.state, erased.refusal⟩
  | clear name =>
    have erased := b.erase_clearNamed name st
    exact ⟨Prod.ext rfl erased.state, erased.refusal⟩
  | reset => exact ⟨Prod.ext b.erase_reset rfl, rfl⟩

theorem HandleCall.erase_run {st : Store} (hs : st.Made .plain) (h : Handle)
    (call : HandleCall Content) :
    (call.run h st).ErasesTo Store.erase (call.erase.run h st.erase) := by
  cases call with
  | set c => exact h.erase_set c st
  | add c => exact h.erase_add hs c
  | clear => exact h.erase_clear st

end Hypertext
