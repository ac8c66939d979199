import Hypertext.Proofs.Names.Embedding
import Hypertext.Proofs.Rendering.Summaries
import Hypertext.Proofs.Session.Edits

/-! # Names of handles

A handle is made with its slot, and goes by the name of the builder that the slot is made with. No
call renames a builder. So the slot's builder and the handle go by one name from then on, unless a
new builder is put in the place of the slot's while the slot is being edited. -/

namespace Hypertext

variable {b : Builder} {st st' : Store}

/-! ## Names of builders -/

namespace Builder

theorem name_append (b : Builder) (c : Content) (st : Store) :
    (b.append c st).value.name = b.name := by
  cases c with
  | empty | text | markup => rfl
  | snippet snippet => rw [append, value_adopt]
  | slot h =>
    obtain ⟨r, pushed⟩ := exists_pushSlot b h st
    rw [append, pushed]
    rfl

theorem name_content (b : Builder) (c : Content) (st : Store) :
    (b.content c st).value.name = b.name :=
  (name_close _).trans (name_append b c st)

theorem name_contents (b : Builder) (cs : List Content) (st : Store) :
    (b.contents cs st).value.name = b.name := by
  refine (name_close _).trans ?_
  refine Logged.foldlM_induction (R := fun c : Builder => c.name = b.name) rfl ?_
  exact fun c _ d same => (name_append d c st).trans same

theorem name_tag (b : Builder) (identifier : String) : (b.tag identifier).name = b.name := by
  simp [tag]

theorem name_giveAttributes (b : Builder) (given : Attributes) :
    (b.giveAttributes given).value.name = b.name := by
  unfold giveAttributes
  split
  · rfl
  · split <;> rfl

theorem name_element (b : Builder) (identifier text : String) :
    (b.element identifier text).name = b.name :=
  (name_close _).trans (name_tag b identifier)

theorem name_enterScope (b : Builder) : b.enterScope.value.name = b.name := by
  unfold enterScope
  cases b.pendingTag? <;> rfl

theorem name_leaveScope (b : Builder) : b.leaveScope.name = b.name := by
  cases h : b.stack.scopes with
  | nil => rw [leaveScope_of_nil h, name_close]
  | cons scope scopes => simp [leaveScope_of_cons h]

end Builder

/-- No call renames the builder. -/
theorem BuilderCall.name_run (call : BuilderCall Content AttributeValue String) (b : Builder)
    (st : Store) : (call.run b st).state.1.name = b.name := by
  cases call with
  | tag identifier => exact b.name_tag identifier
  | attributes given => exact b.name_giveAttributes _
  | content c => exact b.name_content c st
  | contents cs => exact b.name_contents cs st
  | append c => exact b.name_append c st
  | close => exact b.name_close
  | script code => exact b.name_element "script" code
  | style rules => exact b.name_element "style" rules
  | enterScope => exact b.name_enterScope
  | place name =>
    rcases b.place_cases name st with ⟨e, _, hrun⟩ | ⟨d, _, hrun⟩ <;> rw [run, hrun]
    rfl
  | placeWith name c =>
    rcases b.placeWith_cases name c st with ⟨e, _, hrun⟩ | ⟨d, _, _, hrun | hrun⟩ <;>
      rw [run, hrun]
    rfl
  | comment | set | clear | reset => rfl

/-! ## Stores -/

/-- The store may have grown, and the builders that were in it go by the same names. -/
structure Store.KeepsNames (st st' : Store) : Prop where
  size : st.size ≤ st'.size
  name : ∀ i < st.size, (st'.builder i).name = (st.builder i).name

namespace Store.KeepsNames

theorem refl (st : Store) : st.KeepsNames st :=
  ⟨Nat.le_refl _, fun _ _ => rfl⟩

theorem trans {st'' : Store} (h : st.KeepsNames st') (h' : st'.KeepsNames st'') :
    st.KeepsNames st'' where
  size := Nat.le_trans h.size h'.size
  name i hi := (h'.name i (Nat.lt_of_lt_of_le hi h.size)).trans (h.name i hi)

theorem put {i : SlotId} (hb : i < st.size → b.name = (st.builder i).name) :
    st.KeepsNames (st.put i b) where
  size := Nat.le_of_eq (size_put st i b).symm
  name j _ := by
    rw [builder_put]
    split
    · rename_i here
      rw [here.1]
      exact hb here.2
    · rfl

theorem allocate (st : Store) (b : Builder) : st.KeepsNames (st.allocate b) where
  size := by simp
  name i hi := by rw [builder_allocate, if_neg (Nat.ne_of_lt hi)]

theorem setEditing (st : Store) (i : SlotId) (editing : Bool) :
    st.KeepsNames (st.setEditing i editing) where
  size := Nat.le_of_eq (size_setEditing st i editing).symm
  name j _ := by rw [builder_setEditing]

theorem declare {r : Registry} {name : String} {d : Declared} (hd : r.declare name st = .ok d) :
    st.KeepsNames d.store := by
  rw [(Registry.declare_eq hd).2.2]
  exact .allocate st _

end Store.KeepsNames

theorem HandleCall.keepsNames_run (call : HandleCall Content) (h : Handle) (st : Store) :
    st.KeepsNames (call.run h st).state := by
  rcases state_cases call h st with hst | ⟨_, _, base, hb, hst⟩
  · rw [hst]
    exact .refl st
  · have based : base.name = (st.builder h.slot).name := by
      rcases hb with rfl | rfl <;> rfl
    rw [hst]
    refine .put fun _ => ?_
    cases call.content? with
    | none => exact based
    | some c => exact (base.name_content c st).trans based

theorem BuilderCall.keepsNames_byName {call : BuilderCall Content AttributeValue String}
    {name : String} {c : HandleCall Content} (hc : call.byName? = some (name, c)) (b : Builder)
    (st : Store) : st.KeepsNames (call.run b st).state.2 := by
  rcases call.state_byName hc b st with ⟨e, _, hst⟩ | ⟨h, _, hst⟩
  · rw [hst]
    exact .refl st
  · rw [hst]
    exact c.keepsNames_run h st

theorem BuilderCall.keepsNames_run (call : BuilderCall Content AttributeValue String) (b : Builder)
    (st : Store) : st.KeepsNames (call.run b st).state.2 := by
  cases call with
  | place name =>
    rcases b.place_cases name st with ⟨e, _, hrun⟩ | ⟨d, hd, hrun⟩
    · rw [run, hrun]
      exact .refl st
    · rw [run, hrun]
      exact .declare hd
  | placeWith name c =>
    rcases b.placeWith_cases name c st with ⟨e, _, hrun⟩ | ⟨d, hd, hst, _⟩
    · rw [run, hrun]
      exact .refl st
    · rw [run, hst]
      exact (Store.KeepsNames.declare hd).trans (HandleCall.keepsNames_run _ _ _)
  | set | clear => exact keepsNames_byName rfl b st
  | _ => exact .refl st

/-! ## Handles -/

/-- The handle goes by the name of its slot's builder. -/
structure Handle.Fits (st : Store) (h : Handle) : Prop where
  slot : h.slot < st.size
  name : (st.builder h.slot).name = h.name

theorem Handle.Fits.mono {h : Handle} (hh : h.Fits st) (keeps : st.KeepsNames st') : h.Fits st' :=
  ⟨Nat.lt_of_lt_of_le hh.slot keeps.size, (keeps.name h.slot hh.slot).trans hh.name⟩

/-- The handles in the registry go by the names of their slots' builders. -/
def Registry.Fits (st : Store) (r : Registry) : Prop :=
  ∀ h ∈ r.handles, h.Fits st

theorem Registry.Fits.mono {r : Registry} (hr : r.Fits st) (keeps : st.KeepsNames st') :
    r.Fits st' :=
  fun h hh => (hr h hh).mono keeps

theorem Registry.Fits.empty : ({} : Registry).Fits st :=
  fun _ hh => nomatch hh

/-- So do the handles that the builders in the store know. -/
def Store.Fits (st : Store) : Prop :=
  ∀ i, (st.builder i).placeholders.Fits st

/-- So do the handles that come with the content. -/
def Content.Fits (st : Store) : Content → Prop
  | .slot h => h.Fits st
  | .snippet b => b.placeholders.Fits st
  | .empty | .text _ | .markup _ => True

theorem Content.Fits.mono {c : Content} (hc : c.Fits st) (keeps : st.KeepsNames st') :
    c.Fits st' := by
  cases c with
  | slot h => exact Handle.Fits.mono hc keeps
  | snippet b => exact Registry.Fits.mono hc keeps
  | empty | text | markup => trivial

namespace Store.Fits

theorem put {i : SlotId} (hs : st.Fits) (hb : b.placeholders.Fits st)
    (name : i < st.size → b.name = (st.builder i).name) : (st.put i b).Fits := by
  have keeps : st.KeepsNames (st.put i b) := .put name
  exact forall_put (P := fun c => c.placeholders.Fits (st.put i b)) (fun j => (hs j).mono keeps)
    (hb.mono keeps) i

theorem allocate (hs : st.Fits) (hb : b.placeholders.Fits st) : (st.allocate b).Fits := by
  have keeps := KeepsNames.allocate st b
  exact forall_allocate (P := fun c => c.placeholders.Fits (st.allocate b))
    (fun j => (hs j).mono keeps) (hb.mono keeps)

theorem setEditing (hs : st.Fits) (i : SlotId) (editing : Bool) : (st.setEditing i editing).Fits := by
  have keeps := KeepsNames.setEditing st i editing
  exact forall_setEditing (P := fun c => c.placeholders.Fits (st.setEditing i editing))
    (fun j => (hs j).mono keeps) i editing

end Store.Fits

section Declare

variable {r : Registry} {name : String} {d : Declared}

/-- A new placeholder goes by the name that its slot's builder is made with. -/
theorem Registry.fits_handle_declare (hd : r.declare name st = .ok d) : d.handle.Fits d.store := by
  obtain ⟨handle, _, store⟩ := declare_eq hd
  refine ⟨slot_declare hd, ?_⟩
  rw [handle, store, Store.builder_allocate, if_pos rfl]

theorem Registry.Fits.declare (hr : r.Fits st) (hd : r.declare name st = .ok d) :
    d.registry.Fits d.store := by
  rw [(declare_eq hd).2.1]
  exact forall_handles_insert (hr.mono (.declare hd)) (fits_handle_declare hd) name

theorem Store.Fits.declare (hs : st.Fits) (hd : r.declare name st = .ok d) : d.store.Fits := by
  rw [(Registry.declare_eq hd).2.2]
  exact hs.allocate .empty

end Declare

/-! ## Calls -/

namespace Builder

variable {c : Content}

theorem fits_append (hb : b.placeholders.Fits st) (hs : st.Fits) (hc : c.Fits st) :
    (b.append c st).value.placeholders.Fits st := by
  cases c with
  | empty | text | markup => exact hb
  | snippet snippet =>
    rw [append, value_adopt]
    exact Registry.forall_handles_merge hb hc
  | slot h =>
    rw [append]
    cases shared : h.isPlaceholder with
    | true =>
      rw [placeholders_pushSlot_of_placeholder shared]
      exact Registry.forall_handles_adopt hb hc
    | false =>
      rw [placeholders_pushSlot_of_shared shared, Store.placeholders]
      split
      · exact Registry.forall_handles_merge hb Registry.Fits.empty
      · exact Registry.forall_handles_merge hb (hs h.slot)

theorem fits_content (hb : b.placeholders.Fits st) (hs : st.Fits) (hc : c.Fits st) :
    (b.content c st).value.placeholders.Fits st := by
  rw [content, Logged.value_map, placeholders_close]
  exact fits_append hb hs hc

theorem fits_contents {cs : List Content} (hb : b.placeholders.Fits st) (hs : st.Fits)
    (hc : ∀ c ∈ cs, c.Fits st) : (b.contents cs st).value.placeholders.Fits st := by
  rw [contents, Logged.value_map, placeholders_close]
  exact Logged.foldlM_induction (R := fun d : Builder => d.placeholders.Fits st) hb
    fun c hm _ hd => fits_append hd hs (hc c hm)

end Builder

theorem HandleCall.fits_run {call : HandleCall Content} (hs : st.Fits)
    (hc : call.Permitted (Content.Fits st)) (h : Handle) : (call.run h st).state.Fits := by
  rcases state_cases call h st with hst | ⟨_, _, base, hb, hst⟩
  · rwa [hst]
  · have based : base.placeholders.Fits st ∧ base.name = (st.builder h.slot).name := by
      rcases hb with rfl | rfl
      · exact ⟨hs h.slot, rfl⟩
      · exact ⟨.empty, rfl⟩
    rw [hst]
    cases hcall : call.content? with
    | none => exact hs.put based.1 fun _ => based.2
    | some c =>
      exact hs.put (Builder.fits_content based.1 hs (permitted_iff.mp hc c hcall)) fun _ =>
        (base.name_content c st).trans based.2

namespace BuilderCall

variable {call : BuilderCall Content AttributeValue String}

theorem fits_byName {name : String} {c : HandleCall Content} (hn : call.byName? = some (name, c))
    (hb : b.placeholders.Fits st) (hs : st.Fits) (hc : c.Permitted (Content.Fits st)) :
    (call.run b st).state.1.placeholders.Fits (call.run b st).state.2 ∧
      (call.run b st).state.2.Fits := by
  rcases call.state_byName hn b st with ⟨e, _, hst⟩ | ⟨h, _, hst⟩
  · rw [hst]
    exact ⟨hb, hs⟩
  · rw [hst]
    exact ⟨hb.mono (c.keepsNames_run h st), HandleCall.fits_run hs hc h⟩

theorem fits_run (hb : b.placeholders.Fits st) (hs : st.Fits) (hc : call.Brings (Content.Fits st)) :
    (call.run b st).state.1.placeholders.Fits (call.run b st).state.2 ∧
      (call.run b st).state.2.Fits := by
  have kept {c : Builder} (same : c.placeholders = b.placeholders) : c.placeholders.Fits st := by
    rwa [same]
  cases call with
  | tag identifier => exact ⟨kept (b.placeholders_tag identifier), hs⟩
  | attributes given => exact ⟨kept (b.placeholders_giveAttributes _), hs⟩
  | content c => exact ⟨Builder.fits_content hb hs hc, hs⟩
  | contents cs => exact ⟨Builder.fits_contents hb hs hc, hs⟩
  | append c => exact ⟨Builder.fits_append hb hs hc, hs⟩
  | close => exact ⟨kept b.placeholders_close, hs⟩
  | script code => exact ⟨kept (b.placeholders_element "script" code), hs⟩
  | style rules => exact ⟨kept (b.placeholders_element "style" rules), hs⟩
  | comment text => exact ⟨hb, hs⟩
  | enterScope => exact ⟨kept b.placeholders_enterScope, hs⟩
  | place name =>
    rcases b.place_cases name st with ⟨e, _, hrun⟩ | ⟨d, hd, hrun⟩
    · rw [run, hrun]
      exact ⟨hb, hs⟩
    · rw [run, hrun]
      exact ⟨hb.declare hd, hs.declare hd⟩
  | placeWith name c =>
    rcases b.placeWith_cases name c st with ⟨e, _, hrun⟩ | ⟨d, hd, hst, hbuilder⟩
    · rw [run, hrun]
      exact ⟨hb, hs⟩
    · have filling : (HandleCall.add c).Permitted (Content.Fits d.store) :=
        Content.Fits.mono hc (.declare hd)
      have filled := HandleCall.keepsNames_run (.add c) d.handle d.store
      rw [run, hst]
      refine ⟨?_, HandleCall.fits_run (hs.declare hd) filling d.handle⟩
      rcases hbuilder with hbuilder | hbuilder <;> rw [hbuilder] <;>
        exact (hb.declare hd).mono filled
  | set name c =>
    have filling : (HandleCall.set c).Permitted (Content.Fits st) := hc
    exact fits_byName rfl hb hs filling
  | clear name =>
    have emptying : (HandleCall.clear : HandleCall Content).Permitted (Content.Fits st) := trivial
    exact fits_byName rfl hb hs emptying
  | reset => exact ⟨.empty, hs⟩

end BuilderCall

/-! ## Sessions -/

/-- No new builder is put in the place of one that is being edited. -/
def Action.KeepsNames (s : Session) : Action → Prop
  | .perform (.create name _) | .perform (.newDocument name ..) => s.slotOf name = none
  | _ => True

namespace Session

variable {s t u : Session} {name : String} {h : Handle}

/-- All handles of the session go by the names of their slots' builders. -/
structure Fits (s : Session) : Prop where
  store : s.store.Fits
  own : ∀ name b, (name, Site.own b) ∈ s.builders.entries → b.placeholders.Fits s.store
  handles : ∀ e ∈ s.handles.entries, e.2.Fits s.store
  registries : ∀ e ∈ s.registries.entries, e.2.Fits s.store

namespace Fits

theorem start : ({} : Session).Fits where
  store i := by
    rw [Store.builder_of_size_le (Nat.zero_le i)]
    exact .empty
  own _ _ h := nomatch h
  handles _ h := nomatch h
  registries _ h := nomatch h

theorem builderAt {site : Site} (hs : s.Fits) (h : (name, site) ∈ s.builders.entries) :
    (s.builderAt site).placeholders.Fits s.store := by
  cases site with
  | own b => exact hs.own name b h
  | slot i => exact hs.store i

theorem builder? (hs : s.Fits) (h : s.builder? name = some b) : b.placeholders.Fits s.store := by
  obtain ⟨site, hf, rfl⟩ := Option.map_eq_some_iff.mp h
  exact hs.builderAt (Bindings.mem_of_find?_eq_some hf)

theorem knows (hs : s.Fits) (hh : s.Knows h) : h.Fits s.store := by
  rcases hh with ⟨name, hf⟩ | ⟨name, r, hr, hh⟩ | ⟨name, b, hb, hh⟩
  · exact hs.handles _ (Bindings.mem_of_find?_eq_some hf)
  · exact hs.registries _ (Bindings.mem_of_find?_eq_some hr) h hh
  · exact hs.builder? hb h hh

theorem supplies {c : Content} (hs : s.Fits) (hc : s.Supplies c) : c.Fits s.store := by
  cases c with
  | slot h => exact hs.knows (.inl hc)
  | snippet b =>
    obtain ⟨name, site, he, rfl | rfl⟩ := hc
    · exact hs.builderAt he
    · rw [Content.Fits, Builder.placeholders_snapshot]
      exact hs.builderAt he
  | empty | text | markup => trivial

theorem sheds (hs : s.Fits) (h : s.Sheds u) : u.Fits where
  store := by rw [h.store]; exact hs.store
  own name b he := by rw [h.store]; exact hs.own name b (h.builders.mem he)
  handles := by rw [h.store, h.handles]; exact hs.handles
  registries := by rw [h.store, h.registries]; exact hs.registries

theorem withStore (hs : s.Fits) (keeps : s.store.KeepsNames st) (hst : st.Fits) :
    ({ s with store := st } : Session).Fits where
  store := hst
  own name b he := (hs.own name b he).mono keeps
  handles e he := (hs.handles e he).mono keeps
  registries e he := (hs.registries e he).mono keeps

theorem putBuilder (hs : s.Fits) (hb : b.placeholders.Fits s.store)
    (hn : ∀ i, s.slotOf name = some i → i < s.store.size → b.name = (s.store.builder i).name) :
    (s.putBuilder name b).Fits := by
  rcases s.putBuilder_cases name b with ⟨i, hf, hput⟩ | ⟨_, hput⟩
  · have same := hn i (slotOf_eq_some_iff.mpr hf)
    rw [hput]
    exact hs.withStore (.put same) (hs.store.put hb same)
  · rw [hput]
    refine { hs with own := ?_ }
    intro n c he
    rcases Bindings.mem_insert_own he with rfl | he
    · exact hb
    · exact hs.own n c he

theorem binds {new : Handle → Prop} (hs : s.Fits) (hst : t.store = s.store)
    (hb : t.builders = s.builders) (hn : s.Binds t new) (fit : ∀ h, new h → h.Fits s.store) :
    t.Fits where
  store := by rw [hst]; exact hs.store
  own := by rw [hst, hb]; exact hs.own
  handles e he := by
    rw [hst]
    exact (hn.handles e he).elim (hs.handles e) (fit e.2)
  registries e he := by
    rw [hst]
    exact (hn.registries e he).elim (hs.registries e) fun h g hg => fit g (h g hg)

/-- A call on the builder of a variable leaves the builder its name, wherever it is. -/
theorem callBuilder {call : BuilderCall Content AttributeValue String} (hs : s.Fits)
    (sound : s.Sound) (hb : s.builder? name = some b) (hc : call.Brings (Content.Fits s.store)) :
    (s.callBuilder name b call).state.Fits := by
  obtain ⟨fits, hst⟩ := BuilderCall.fits_run (hs.builder? hb) hs.store hc
  have keeps := call.keepsNames_run b s.store
  refine (hs.withStore keeps hst).putBuilder fits ?_
  intro i (site : s.slotOf name = some i) _
  have edited := sound.edited i (mem_sites_of_find? (slotOf_eq_some_iff.mp site))
  rw [builder?_of_slotOf site] at hb
  cases hb
  exact (call.name_run _ _).trans (keeps.name i (Store.lt_size_of_isEdited edited)).symm

theorem callHandle {call : HandleCall Content} (hs : s.Fits)
    (hc : call.Permitted (Content.Fits s.store)) (h : Handle) :
    (s.callHandle h call).state.Fits :=
  hs.withStore (call.keepsNames_run h s.store) (HandleCall.fits_run hs.store hc h)

theorem share (hs : s.Fits) (hb : b.placeholders.Fits s.store) (target : String) :
    (s.share b target).Fits := by
  have allocated := hs.withStore (.allocate s.store b) (hs.store.allocate hb)
  have shared : (b.sharedHandle s.store).Fits (s.store.allocate b) := by
    refine ⟨by simp [Builder.sharedHandle], ?_⟩
    rw [Store.builder_allocate, Builder.sharedHandle, if_pos rfl]
  exact allocated.binds rfl rfl (.bindHandle (.refl _) shared target) fun _ h => h

theorem leaveScope (hs : s.Fits) (name : String) : (s.leaveScope name).Fits := by
  unfold Session.leaveScope
  split
  · rename_i b hb
    refine hs.putBuilder ?_ ?_
    · rw [Builder.placeholders_leaveScope]
      exact hs.builder? hb
    · intro i edited _
      rw [builder?_of_slotOf edited] at hb
      cases hb
      exact Builder.name_leaveScope _
  · exact hs

theorem change {step : Step} (hs : s.Fits) (sound : s.Sound) (hk : (Action.perform step).KeepsNames s)
    (h : s.Change step t) : t.Fits := by
  cases h with
  | create name given =>
    refine hs.putBuilder .empty fun i edited => ?_
    cases hk.symm.trans edited
  | document hd =>
    refine hs.putBuilder ?_ fun i edited => ?_
    · exact fun h hh => absurd ((Builder.Within.document hd).placeholders h hh) (Nat.not_lt_zero _)
    · cases hk.symm.trans edited
  | call he hb =>
    obtain ⟨supplied, sheds⟩ := Eval.supplies_builderCall he
    have hu := hs.sheds sheds
    refine hu.callBuilder (sound.sheds sheds) hb (supplied.mono fun c hc => ?_)
    rw [sheds.store]
    exact hs.supplies hc
  | share hb =>
    exact (hs.sheds ((Sheds.refl s).erase _)).share
      (hs.own _ _ (Bindings.mem_of_find?_eq_some hb)) _
  | handleCall he hh =>
    obtain ⟨supplied, sheds⟩ := Eval.supplies_handleCall he
    have hu := hs.sheds sheds
    refine hu.callHandle (supplied.mono fun c hc => ?_) _
    rw [sheds.store]
    exact hs.supplies hc
  | declare hr hd hst hb hn =>
    have known := hs.registries _ (Bindings.mem_of_find?_eq_some hr)
    have hs' := hs.withStore (.declare hd) (hs.store.declare hd)
    refine hs'.binds hst hb ⟨hn.handles, hn.registries⟩ ?_
    rintro h (rfl | hh)
    · exact Registry.fits_handle_declare hd
    · exact (known h hh).mono (.declare hd)
  | bind hst hb hn => exact hs.binds hst hb hn fun h => hs.knows

theorem act {a : Action} (hs : s.Fits) (sound : s.Sound) (hk : a.KeepsNames s) : (s.act a).Fits := by
  cases a with
  | perform step => exact hs.change sound hk (s.change_perform step)
  | leaveScope name => exact hs.leaveScope name
  | beginEdit name target =>
    simp only [Session.act]
    split
    · rename_i h _
      split
      · exact hs
      · have editing := hs.withStore (.setEditing s.store h.slot true)
          (hs.store.setEditing h.slot true)
        exact { editing with own := fun n b he => editing.own n b (Bindings.mem_push_slot he) }
    · exact hs
  | endEdit i =>
    have ended := hs.withStore (.setEditing s.store i false) (hs.store.setEditing i false)
    exact { ended with own := fun n b he => ended.own n b (List.mem_of_mem_filter he) }

end Fits

theorem Follows.fits (h : s.Follows fun s a => a.KeepsNames s) : s.Fits := by
  induction h with
  | start => exact .start
  | act a h ha ih => exact ih.act h.reachable.sound ha

/-- **A handle goes by the name of its slot's builder.** This holds of all handles that the session
can tell, as long as no new builder was put in the place of one that was being edited. -/
theorem name_of_known (hs : s.Follows fun s a => a.KeepsNames s) (hh : s.Knows h) :
    (s.store.builder h.slot).name = h.name :=
  (hs.fits.knows hh).name

/-- An edit that puts another builder in the place of the slot's. -/
def replacing : List Action :=
  [.perform (.registry "r" .create),
    .perform (.registry "r" (.declare "Loop" (some "t"))),
    .beginEdit "t" "x",
    .perform (.create "x" (some "Other")),
    .endEdit 0]

example : (run {} replacing).handles.find? "t" = some ⟨"Loop", 0, true⟩ ∧
    ((run {} replacing).store.builder 0).name = "Other" := by
  decide +kernel

/-- So a slot is summarized under the name of the handle. -/
theorem brief_of_known (hs : s.Follows fun s a => a.KeepsNames s) (hh : s.Knows h) :
    (h.brief s.store).value =
      summary h.name
        (if s.store.isEdited h.slot then "" else ((s.store.builder h.slot).render s.store).value) := by
  split
  · rename_i edited
    exact Handle.brief_of_edited edited
  · rename_i unedited
    rw [Handle.brief_of_unedited (eq_false_of_ne_true unedited), name_of_known hs hh]

end Session

end Hypertext
