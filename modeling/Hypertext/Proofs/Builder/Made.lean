import Hypertext.Proofs.Builder.Parts
import Hypertext.Proofs.Document.Parts
import Hypertext.Proofs.Slots.Laws
import Hypertext.Session.Call

/-! # How builders are made

Whatever is done to a builder, it is done through few operations. `Builder.Made` has a case for each
of them, so a property of all builders is proved by an induction over these cases. A policy says
which names and which markup are used on the way. -/

namespace Hypertext

/-- What is permitted besides texts. -/
structure Policy where
  /-- The identifiers of elements. -/
  tags : String → Prop
  /-- The identifiers of attributes. -/
  attributes : String → Prop
  /-- Markup that is taken as it is. -/
  markup : String → Prop

namespace Policy

/-- Nothing is forbidden. -/
def any : Policy where
  tags _ := True
  attributes _ := True
  markup _ := True

def Permits (P : Policy) (given : Attributes) : Prop :=
  ∀ a ∈ given.entries, P.attributes a.identifier

/-- The markup of a comment on the text. -/
def comments (P : Policy) (text : String) : Prop :=
  P.markup ("<!--" ++ Escape.escapeComment text ++ "-->")

/-- Every element and attribute that a document is made of, but for its scripts. -/
structure Documents (P : Policy) : Prop where
  doctype : P.markup "<!DOCTYPE html>"
  tags : ∀ identifier ∈ ["html", "meta", "title", "link"], P.tags identifier
  attributes : ∀ identifier ∈ ["charset", "name", "content", "href", "rel", "type"],
    P.attributes identifier

/-- The elements and attributes that link a resource. -/
def Links (P : Policy) : Resource → Prop
  | .link attributes => P.Permits attributes
  | .script => P.tags "script" ∧ P.attributes "src" ∧ P.attributes "defer"
  | .scriptModule => P.tags "script" ∧ P.attributes "src"

/-- The configuration's own attributes, and what links its resources. -/
structure Config (P : Policy) (config : DocumentConfig) : Prop where
  html : P.Permits config.html
  urls : ∀ url ∈ config.urls, ∀ r, Resource.classify url = .ok r → P.Links r

theorem any_documents : any.Documents :=
  ⟨trivial, fun _ _ => trivial, fun _ _ => trivial⟩

theorem any_links (r : Resource) : any.Links r := by
  cases r <;> simp [Links, Permits, any]

theorem any_config (config : DocumentConfig) : any.Config config where
  html _ _ := trivial
  urls _ _ r _ := any_links r

end Policy

variable {P : Policy}

/-- The builder comes from operations that the policy permits. -/
inductive Builder.Made (P : Policy) : Builder → Prop
  | new (name : String) : Made P { name }
  | tag {b : Builder} {identifier : String} (ht : P.tags identifier) (hb : Made P b) :
      Made P (b.tag identifier)
  | giveAttributes {b : Builder} {given : Attributes} (hg : P.Permits given) (hb : Made P b) :
      Made P (b.giveAttributes given).value
  | pushText {b : Builder} (text : String) (hb : Made P b) : Made P (b.pushText text)
  | pushMarkup {b : Builder} {html : String} (hm : P.markup html) (hb : Made P b) :
      Made P (b.pushPiece (.text html))
  | adopt {b snippet : Builder} (hb : Made P b) (hs : Made P snippet) :
      Made P (b.adopt snippet).value
  | pushSlot {b : Builder} (h : Handle) (hb : Made P b) : Made P (b.push (.slot h))
  | withPlaceholders {b : Builder} (r : Registry) (hb : Made P b) :
      Made P { b with placeholders := r }
  | close {b : Builder} (hb : Made P b) : Made P b.close
  | enterScope {b : Builder} (hb : Made P b) : Made P b.enterScope.value
  | leaveScope {b : Builder} (hb : Made P b) : Made P b.leaveScope
  | snapshot {b : Builder} (hb : Made P b) : Made P b.snapshot

/-- The content brings only what the policy permits. -/
def Content.Made (P : Policy) : Content → Prop
  | .markup html => P.markup html
  | .snippet b => b.Made P
  | .empty | .text _ | .slot _ => True

/-- Every slot's builder is made as the policy permits. -/
def Store.Made (P : Policy) (st : Store) : Prop :=
  ∀ i, (st.builder i).Made P

namespace Builder.Made

variable {b : Builder} {c : Content} {st : Store}

theorem reset (b : Builder) : b.reset.Made P :=
  .new b.name

theorem append (hb : b.Made P) (hc : c.Made P) (st : Store) : (b.append c st).value.Made P := by
  cases c with
  | empty => exact hb
  | text text => exact .pushText text hb
  | markup html => exact .pushMarkup hc hb
  | snippet snippet => exact .adopt hb hc
  | slot h =>
    obtain ⟨r, pushed⟩ := exists_pushSlot b h st
    rw [Builder.append, pushed]
    exact .pushSlot h (.withPlaceholders r hb)

theorem content (hb : b.Made P) (hc : c.Made P) (st : Store) : (b.content c st).value.Made P :=
  (hb.append hc st).close

theorem contents {cs : List Content} (hb : b.Made P) (hc : ∀ c ∈ cs, c.Made P) (st : Store) :
    (b.contents cs st).value.Made P := by
  refine close ?_
  exact Logged.foldlM_induction (R := Made P) hb fun c hm _ hb => hb.append (hc c hm) st

theorem element {identifier : String} (hb : b.Made P) (ht : P.tags identifier) (text : String) :
    (b.element identifier text).Made P :=
  ((hb.tag ht).pushText text).close

theorem comment {text : String} (hb : b.Made P)
    (hm : P.comments text) : (b.comment text).Made P :=
  .pushMarkup hm hb

end Builder.Made

/-! ## Slots -/

namespace Store.Made

variable {st : Store}

theorem put {b : Builder} (hs : st.Made P) (hb : b.Made P) (i : SlotId) : (st.put i b).Made P :=
  forall_put hs hb i

theorem allocate {b : Builder} (hs : st.Made P) (hb : b.Made P) : (st.allocate b).Made P :=
  forall_allocate hs hb

theorem declare {r : Registry} {name : String} {d : Declared} (hs : st.Made P)
    (hd : r.declare name st = .ok d) : d.store.Made P := by
  unfold Registry.declare at hd
  split at hd
  · cases hd
  · cases hd
    exact hs.allocate (.new name)

theorem setEditing (hs : st.Made P) (i : SlotId) (editing : Bool) :
    (st.setEditing i editing).Made P :=
  forall_setEditing hs i editing

theorem add {c : Content} (hs : st.Made P) (hc : c.Made P) (h : Handle) :
    (h.add c st).state.Made P := by
  unfold Handle.add
  split
  · exact hs
  · exact hs.put ((hs h.slot).content hc st) h.slot

theorem set {c : Content} (hs : st.Made P) (hc : c.Made P) (h : Handle) :
    (h.set c st).state.Made P := by
  unfold Handle.set
  split
  · exact hs
  · exact hs.put ((Builder.Made.reset _).content hc st) h.slot

theorem clear (hs : st.Made P) (h : Handle) : (h.clear st).state.Made P := by
  unfold Handle.clear
  split
  · exact hs
  · exact hs.put (.reset _) h.slot

end Store.Made

/-! ## Calls -/

/-- What is given to the call is permitted; it is said of the contents and of the texts of comments
what that means for them. -/
def BuilderCall.Permitted {γ α τ : Type} (P : Policy) (content : γ → Prop) (comment : τ → Prop) :
    BuilderCall γ α τ → Prop
  | .tag identifier => P.tags identifier
  | .attributes given => ∀ a ∈ given, P.attributes a.1
  | .content c | .append c | .placeWith _ c | .set _ c => content c
  | .contents cs => ∀ c ∈ cs, content c
  | .script _ => P.tags "script"
  | .style _ => P.tags "style"
  | .comment text => comment text
  | .close | .enterScope | .place _ | .clear _ | .reset => True

def HandleCall.Permitted {γ : Type} (content : γ → Prop) : HandleCall γ → Prop
  | .set c | .add c => content c
  | .clear => True

theorem BuilderCall.permitted_of_forall {γ α τ : Type} {content : γ → Prop} {comment : τ → Prop}
    (hc : ∀ c, content c) (ht : ∀ text, comment text) (call : BuilderCall γ α τ) :
    call.Permitted .any content comment := by
  cases call with
  | attributes given => exact fun _ _ => trivial
  | contents cs => exact fun c _ => hc c
  | content c | append c | placeWith _ c | set _ c => exact hc c
  | comment text => exact ht text
  | _ => trivial

theorem HandleCall.permitted_of_forall {γ : Type} {content : γ → Prop} (hc : ∀ c, content c)
    (call : HandleCall γ) : call.Permitted content := by
  cases call with
  | set c | add c => exact hc c
  | clear => trivial

abbrev BuilderCall.Made (P : Policy) (call : BuilderCall Content AttributeValue String) : Prop :=
  call.Permitted P (Content.Made P) P.comments

abbrev HandleCall.Made (P : Policy) (call : HandleCall Content) : Prop :=
  call.Permitted (Content.Made P)

namespace Builder.Made

variable {b : Builder} {st : Store}

theorem place (hb : b.Made P) (hs : st.Made P) (name : String) :
    (b.place name st).state.1.Made P ∧ (b.place name st).state.2.Made P := by
  rcases b.place_cases name st with ⟨e, _, hrun⟩ | ⟨d, hd, hrun⟩
  · rw [hrun]
    exact ⟨hb, hs⟩
  · rw [hrun]
    exact ⟨.pushSlot _ (.withPlaceholders _ hb), hs.declare hd⟩

theorem placeWith {c : Content} (hb : b.Made P) (hs : st.Made P) (hc : c.Made P)
    (name : String) :
    (b.placeWith name c st).state.1.Made P ∧ (b.placeWith name c st).state.2.Made P := by
  rcases b.placeWith_cases name c st with ⟨e, _, hrun⟩ | ⟨d, hd, hst, hbuilder⟩
  · rw [hrun]
    exact ⟨hb, hs⟩
  · rw [hst]
    refine ⟨?_, (hs.declare hd).add hc d.handle⟩
    rcases hbuilder with hbuilder | hbuilder
    · rw [hbuilder]
      exact .withPlaceholders _ hb
    · rw [hbuilder]
      exact .pushSlot _ (.withPlaceholders _ hb)

end Builder.Made

theorem Store.Made.setNamed {st : Store} {c : Content} (hs : st.Made P) (hc : c.Made P)
    (b : Builder) (name : String) : (b.set name c st).state.Made P := by
  unfold Builder.set
  split
  · exact hs
  · exact hs.set hc _

theorem Store.Made.clearNamed {st : Store} (hs : st.Made P) (b : Builder) (name : String) :
    (b.clear name st).state.Made P := by
  unfold Builder.clear
  split
  · exact hs
  · exact hs.clear _

/-- A permitted call leaves a builder and slots that are made as permitted. -/
theorem BuilderCall.Made.run {call : BuilderCall Content AttributeValue String} {b : Builder}
    {st : Store} (hc : call.Made P) (hb : b.Made P) (hs : st.Made P) :
    (call.run b st).state.1.Made P ∧ (call.run b st).state.2.Made P := by
  cases call with
  | tag identifier => exact ⟨hb.tag hc, hs⟩
  | attributes given =>
    refine ⟨hb.giveAttributes fun a ha => ?_, hs⟩
    obtain ⟨e, he, rfl⟩ := List.mem_map.mp ha
    exact hc e he
  | content c => exact ⟨hb.content hc st, hs⟩
  | contents cs => exact ⟨hb.contents hc st, hs⟩
  | append c => exact ⟨hb.append hc st, hs⟩
  | close => exact ⟨hb.close, hs⟩
  | script code => exact ⟨hb.element hc code, hs⟩
  | style rules => exact ⟨hb.element hc rules, hs⟩
  | comment text => exact ⟨hb.comment hc, hs⟩
  | enterScope => exact ⟨hb.enterScope, hs⟩
  | place name => exact hb.place hs name
  | placeWith name c => exact hb.placeWith hs hc name
  | set name c => exact ⟨hb, hs.setNamed hc b name⟩
  | clear name => exact ⟨hb, hs.clearNamed b name⟩
  | reset => exact ⟨.reset b, hs⟩

theorem HandleCall.Made.run {call : HandleCall Content} {st : Store} (hc : call.Made P)
    (hs : st.Made P) (h : Handle) : (call.run h st).state.Made P := by
  cases call with
  | set c => exact hs.set hc h
  | add c => exact hs.add hc h
  | clear => exact hs.clear h

/-! ## Documents -/

/-- The operations that documents are made of keep the property, as far as the policy permits them. -/
structure Policy.Builds (P : Policy) (R : Builder → Prop) : Prop where
  tag {b : Builder} {identifier : String} (ht : P.tags identifier) (hb : R b) :
    R (b.tag identifier)
  giveAttributes {b : Builder} {given : Attributes} (hg : P.Permits given) (hb : R b) :
    R (b.giveAttributes given).value
  pushText {b : Builder} (text : String) (hb : R b) : R (b.pushText text)
  close {b : Builder} (hb : R b) : R b.close

namespace Policy.Builds

variable {R : Builder → Prop} {b : Builder}

theorem giveAttribute (hR : P.Builds R) {identifier : String} (ha : P.attributes identifier)
    (v : AttributeValue) (hb : R b) : R (b.giveAttribute identifier v).value :=
  hR.giveAttributes (List.forall_mem_singleton.mpr ha) hb

theorem tagWith (hR : P.Builds R) {identifier given : String} (ht : P.tags identifier)
    (ha : P.attributes given) (v : AttributeValue) (hb : R b) :
    R ((b.tag identifier).giveAttribute given v).value :=
  hR.giveAttribute ha v (hR.tag ht hb)

theorem link (hR : P.Builds R) {r : Resource} (hd : P.Documents) (hl : P.Links r) (url : String)
    (hb : R b) : R (b.link url r).value := by
  cases r with
  | link attributes =>
    have ht := hd.tags "link" (by simp)
    have ha := hd.attributes "href" (by simp)
    exact hR.giveAttributes hl (hR.tagWith ht ha _ hb)
  | script =>
    obtain ⟨ht, source, defer⟩ := hl
    exact hR.close (hR.giveAttribute defer _ (hR.tagWith ht source _ hb))
  | scriptModule =>
    obtain ⟨ht, source⟩ := hl
    have ha := hd.attributes "type" (by simp)
    exact hR.close (hR.giveAttribute ha _ (hR.tagWith ht source _ hb))

theorem head (hR : P.Builds R) {config : DocumentConfig} (hd : P.Documents) (hc : P.Config config)
    (hb : R b) : R (b.head config).value := by
  have root : R (b.withRoot config.html).value := by
    unfold Builder.withRoot
    split
    · exact hb
    · exact hR.giveAttributes hc.html (hR.tag (hd.tags "html" (by simp)) hb)
  have title {b : Builder} (hb : R b) : R (b.withTitle config.title).value := by
    unfold Builder.withTitle
    split
    · exact hb
    · have encoded := hR.tagWith (hd.tags "meta" (by simp)) (hd.attributes "charset" (by simp))
        (.text "utf-8") hb
      exact hR.close (hR.pushText _ (hR.tag (hd.tags "title" (by simp)) encoded))
  have viewport {b : Builder} (hb : R b) : R (b.withViewport config.viewport).value := by
    unfold Builder.withViewport
    split
    · exact hb
    · have named := hR.tagWith (hd.tags "meta" (by simp)) (hd.attributes "name" (by simp))
        (.text "viewport") hb
      exact hR.giveAttribute (hd.attributes "content" (by simp)) _ named
  rw [Builder.head_eq]
  exact viewport (title root)

theorem document (hR : P.Builds R) {config : DocumentConfig} {doc : Logged Builder}
    (hd : P.Documents) (hc : P.Config config)
    (start : R (({ name := "Document Builder" } : Builder).pushPiece doctype))
    (h : document config = .ok doc) : R doc.value := by
  unfold Hypertext.document at h
  cases hm : config.urls.mapM fun url => (url, ·) <$> Resource.classify url with
  | error e => rw [hm] at h; cases h
  | ok resources =>
    rw [hm] at h
    cases h
    have linked : ∀ r ∈ resources, P.Links r.2 := by
      refine forall_of_mapM_eq_ok hm ?_
      intro url hu r hr
      cases hcl : Resource.classify url with
      | error e => rw [hcl] at hr; cases hr
      | ok s =>
        rw [hcl] at hr
        cases hr
        exact hc.urls url hu s hcl
    exact Logged.foldlM_induction (hR.head hd hc start) fun r hm _ hb =>
      hR.link hd (linked r hm) r.1 hb

end Policy.Builds

theorem Builder.Made.document {config : DocumentConfig} {doc : Logged Builder} (hd : P.Documents)
    (hc : P.Config config) (h : document config = .ok doc) : doc.value.Made P :=
  Policy.Builds.document ⟨.tag, .giveAttributes, .pushText, .close⟩ hd hc
    (.pushMarkup hd.doctype (.new _)) h

end Hypertext
