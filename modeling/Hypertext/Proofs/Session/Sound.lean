import Hypertext.Proofs.Session.Changes
import Mathlib.Data.List.Pairwise

/-! # Sound sessions

In a session that can be reached, every handle refers to a slot of the store. A variable stands for
the builder of a slot only while the slot is being edited, and no two variables for the same one. -/

namespace Hypertext

def Site.slot? : Site → Option SlotId
  | .own _ => none
  | .slot i => some i

namespace Session

variable {s t u : Session} {name : String} {b : Builder} {st : Store}

/-- The slots whose builders the variables stand for. -/
def sites (s : Session) : List SlotId :=
  s.builders.entries.filterMap fun e => e.2.slot?

theorem mem_sites {i : SlotId} :
    i ∈ s.sites ↔ ∃ name, (name, Site.slot i) ∈ s.builders.entries := by
  constructor
  · intro h
    obtain ⟨⟨name, site⟩, he, hi⟩ := List.mem_filterMap.mp h
    cases site with
    | own b => cases hi
    | slot j => cases hi; exact ⟨name, he⟩
  · rintro ⟨name, he⟩
    exact List.mem_filterMap.mpr ⟨_, he, rfl⟩

theorem mem_sites_of_find? {i : SlotId} (h : s.builders.find? name = some (.slot i)) :
    i ∈ s.sites :=
  mem_sites.mpr ⟨name, Bindings.mem_of_find?_eq_some h⟩

theorem sites_sublist (h : u.builders.entries.Sublist s.builders.entries) :
    u.sites.Sublist s.sites :=
  h.filterMap _

theorem sites_insert_own (v : Bindings Site) (name : String) (b : Builder) :
    ((v.insert name (.own b)).entries.filterMap fun e => e.2.slot?).Sublist
      (v.entries.filterMap fun e => e.2.slot?) := by
  simp only [Bindings.insert, Bindings.push, Bindings.erase, List.filterMap_cons, Site.slot?]
  exact List.eraseP_sublist.filterMap _

/-- Either the variable stands for a slot's builder, or it has the builder for its own. -/
theorem putBuilder_cases (s : Session) (name : String) (b : Builder) :
    (∃ i, s.builders.find? name = some (.slot i) ∧
      s.putBuilder name b = { s with store := s.store.put i b }) ∨
    ((∀ i, s.builders.find? name ≠ some (.slot i)) ∧
      s.putBuilder name b = { s with builders := s.builders.insert name (.own b) }) := by
  unfold putBuilder
  split
  · rename_i i hf
    exact .inl ⟨i, hf, rfl⟩
  · rename_i hf
    exact .inr ⟨hf, rfl⟩

theorem sites_endEdit (s : Session) (i : SlotId) : (s.endEdit i).sites.Sublist s.sites :=
  sites_sublist List.filter_sublist

theorem not_mem_sites_endEdit (s : Session) (i : SlotId) : i ∉ (s.endEdit i).sites := by
  intro h
  obtain ⟨name, he⟩ := mem_sites.mp h
  simpa [Site.isSlot] using (List.mem_filter.mp he).2

/-- The handles at hand refer to slots, and the variables do not share slots, all being edited. -/
structure Sound (s : Session) : Prop where
  store : s.store.Scoped
  own : ∀ name b, (name, Site.own b) ∈ s.builders.entries → b.Within s.store.size
  handles : ∀ e ∈ s.handles.entries, e.2.slot < s.store.size
  registries : ∀ e ∈ s.registries.entries, e.2.Within s.store.size
  edited : ∀ i ∈ s.sites, s.store.isEdited i = true
  distinct : s.sites.Nodup

namespace Sound

theorem start : ({} : Session).Sound where
  store i := by
    have empty : ({} : Store).builder i = { name := "" } := by simp [Store.builder, Store.slot]
    rw [empty]
    exact .new ""
  own _ _ h := nomatch h
  handles _ h := nomatch h
  registries _ h := nomatch h
  edited _ h := nomatch h
  distinct := List.nodup_nil

theorem find? {site : Site} (hs : s.Sound) (h : (name, site) ∈ s.builders.entries) :
    (s.builderAt site).Within s.store.size := by
  cases site with
  | own b => exact hs.own name b h
  | slot i => exact hs.store i

theorem builder? (hs : s.Sound) (h : s.builder? name = some b) : b.Within s.store.size := by
  obtain ⟨site, hf, rfl⟩ := Option.map_eq_some_iff.mp h
  exact hs.find? (Bindings.mem_of_find?_eq_some hf)

theorem handle (hs : s.Sound) {h : Handle} (hf : s.handles.find? name = some h) :
    h.slot < s.store.size :=
  hs.handles _ (Bindings.mem_of_find?_eq_some hf)

theorem sheds (hs : s.Sound) (h : s.Sheds u) : u.Sound where
  store := by rw [h.store]; exact hs.store
  own name b he := by rw [h.store]; exact hs.own name b (h.builders.mem he)
  handles := by rw [h.store, h.handles]; exact hs.handles
  registries := by rw [h.store, h.registries]; exact hs.registries
  edited i hi := by rw [h.store]; exact hs.edited i ((sites_sublist h.builders).mem hi)
  distinct := hs.distinct.sublist (sites_sublist h.builders)

theorem withStore (hs : s.Sound) (hr : s.store.Respects st) (hst : st.Scoped) :
    ({ s with store := st } : Session).Sound where
  store := hst
  own name b he := (hs.own name b he).mono hr.size
  handles e he := Nat.lt_of_lt_of_le (hs.handles e he) hr.size
  registries e he := (hs.registries e he).mono hr.size
  edited i hi := (hr.isEdited i).trans (hs.edited i hi)
  distinct := hs.distinct

theorem putBuilder (hs : s.Sound) (hb : b.Within s.store.size) (name : String) :
    (s.putBuilder name b).Sound := by
  rcases s.putBuilder_cases name b with ⟨i, _, hput⟩ | ⟨_, hput⟩
  · rw [hput]
    exact
      { store := hs.store.put hb i
        own := fun n c he => by rw [Store.size_put]; exact hs.own n c he
        handles := by rw [Store.size_put]; exact hs.handles
        registries := by rw [Store.size_put]; exact hs.registries
        edited := fun j hj => (Store.isEdited_put _ _ _ _).trans (hs.edited j hj)
        distinct := hs.distinct }
  · have fewer := sites_insert_own s.builders name b
    rw [hput]
    refine
      { hs with
        own := ?_
        edited := fun j hj => hs.edited j (fewer.mem hj)
        distinct := hs.distinct.sublist fewer }
    intro n c he
    rcases Bindings.mem_insert_own he with rfl | he
    · exact hb
    · exact hs.own n c he

theorem supplies {c : Content} (hs : s.Sound) (hc : s.Supplies c) : c.Within s.store.size := by
  cases c with
  | slot h =>
    obtain ⟨name, hf⟩ := hc
    exact hs.handle hf
  | snippet b =>
    obtain ⟨name, site, he, rfl | rfl⟩ := hc
    · exact hs.find? he
    · exact (hs.find? he).of_eq (Builder.slots_snapshot _) (Builder.placeholders_snapshot _)
  | empty | text | markup => trivial

/-- The contents that a call brings are from the session that its evaluation leaves. -/
theorem builderCall {e : BuilderCall ContentExpr ValueExpr TextExpr}
    {call : BuilderCall Content AttributeValue String} (hs : s.Sound)
    (he : (Eval.builderCall e).Returns s call u) :
    u.Sound ∧ u.store = s.store ∧ call.Brings (Content.Within u.store.size) := by
  obtain ⟨supplied, sheds⟩ := Eval.supplies_builderCall he
  refine ⟨hs.sheds sheds, sheds.store, ?_⟩
  rw [sheds.store]
  exact supplied.mono fun c => hs.supplies

theorem handleCall {e : HandleCall ContentExpr} {call : HandleCall Content} (hs : s.Sound)
    (he : (Eval.handleCall e).Returns s call u) :
    u.Sound ∧ u.store = s.store ∧ call.Permitted (Content.Within u.store.size) := by
  obtain ⟨supplied, sheds⟩ := Eval.supplies_handleCall he
  refine ⟨hs.sheds sheds, sheds.store, ?_⟩
  rw [sheds.store]
  exact supplied.mono fun c => hs.supplies

theorem knows {h : Handle} (hs : s.Sound) (hh : s.Knows h) : h.slot < s.store.size := by
  rcases hh with ⟨name, hf⟩ | ⟨name, r, hr, hh⟩ | ⟨name, b, hb, hh⟩
  · exact hs.handle hf
  · exact hs.registries _ (Bindings.mem_of_find?_eq_some hr) h hh
  · exact (hs.builder? hb).placeholders h hh

theorem binds {new : Handle → Prop} (hs : s.Sound) (hst : t.store = s.store)
    (hb : t.builders = s.builders) (hn : s.Binds t new)
    (within : ∀ h, new h → h.slot < s.store.size) : t.Sound where
  store := by rw [hst]; exact hs.store
  own := by rw [hst, hb]; exact hs.own
  handles e he := by
    rw [hst]
    exact (hn.handles e he).elim (hs.handles e) (within e.2)
  registries e he := by
    rw [hst]
    exact (hn.registries e he).elim (hs.registries e) fun h g hg => within g (h g hg)
  edited := by rw [sites, hst, hb]; exact hs.edited
  distinct := by rw [sites, hb]; exact hs.distinct

theorem callBuilder {call : BuilderCall Content AttributeValue String} (hs : s.Sound)
    (hb : b.Within s.store.size) (hc : call.Brings (Content.Within s.store.size)) (name : String) :
    (s.callBuilder name b call).state.Sound := by
  obtain ⟨hb, hst⟩ := BuilderCall.scoped_run hb hs.store hc
  exact (hs.withStore (call.respects_run b s.store) hst).putBuilder hb name

theorem callHandle {call : HandleCall Content} (hs : s.Sound)
    (hc : call.Permitted (Content.Within s.store.size)) (h : Handle) :
    (s.callHandle h call).state.Sound :=
  hs.withStore (call.respects_run h s.store) (HandleCall.scoped_run hs.store hc h)

theorem share (hs : s.Sound) (hb : b.Within s.store.size) (target : String) :
    (s.share b target).Sound := by
  have allocated := hs.withStore (.allocate s.store b) (hs.store.allocate hb)
  have shared : (b.sharedHandle s.store).slot < (s.store.allocate b).size := by
    simp [Builder.sharedHandle]
  exact allocated.binds rfl rfl (.bindHandle (.refl _) shared target) fun _ h => h

theorem leaveScope (hs : s.Sound) (name : String) : (s.leaveScope name).Sound := by
  unfold Session.leaveScope
  split
  · rename_i b hb
    exact hs.putBuilder ((hs.builder? hb).of_eq (Builder.slots_leaveScope b) (by simp)) name
  · exact hs

/-- No variable stands for the slot yet, as it is not being edited. -/
theorem beginEdit {i : SlotId} (hs : s.Sound) (hi : s.store.isEdited i = false)
    (hlt : i < s.store.size) (name : String) : (s.beginEdit i name).Sound where
  store := hs.store.setEditing i true
  own n b he := by
    rw [Session.beginEdit, Store.size_setEditing]
    exact hs.own n b (Bindings.mem_push_slot he)
  handles := by rw [Session.beginEdit, Store.size_setEditing]; exact hs.handles
  registries := by rw [Session.beginEdit, Store.size_setEditing]; exact hs.registries
  edited j hj := by
    rcases List.mem_cons.mp hj with rfl | hj
    · simp [Session.beginEdit, Store.isEdited_setEditing, hlt]
    · have := hs.edited j hj
      simp [Session.beginEdit, Store.isEdited_setEditing, this]
  distinct := by
    refine List.nodup_cons.mpr ⟨?_, hs.distinct⟩
    intro h
    rw [hs.edited i h] at hi
    cases hi

theorem endEdit (hs : s.Sound) (i : SlotId) : (s.endEdit i).Sound where
  store := hs.store.setEditing i false
  own n b he := by
    rw [Session.endEdit, Store.size_setEditing]
    exact hs.own n b (List.mem_of_mem_filter he)
  handles := by rw [Session.endEdit, Store.size_setEditing]; exact hs.handles
  registries := by rw [Session.endEdit, Store.size_setEditing]; exact hs.registries
  edited j hj := by
    have hne : j ≠ i := by
      rintro rfl
      exact not_mem_sites_endEdit s j hj
    have := hs.edited j ((sites_endEdit s i).mem hj)
    simp [Session.endEdit, Store.isEdited_setEditing, hne, this]
  distinct := hs.distinct.sublist (sites_endEdit s i)

theorem change {step : Step} (hs : s.Sound) (h : s.Change step t) : t.Sound := by
  cases h with
  | create name given => exact hs.putBuilder (.new _) name
  | document hd => exact hs.putBuilder ((Builder.Within.document hd).mono (Nat.zero_le _)) _
  | call he hb =>
    obtain ⟨hu, _, within⟩ := hs.builderCall he
    exact hu.callBuilder (hu.builder? hb) within _
  | share hb =>
    exact (hs.sheds ((Sheds.refl s).erase _)).share
      (hs.own _ _ (Bindings.mem_of_find?_eq_some hb)) _
  | handleCall he hh =>
    obtain ⟨hu, _, within⟩ := hs.handleCall he
    exact hu.callHandle within _
  | declare hr hd hst hb hn =>
    have known := hs.registries _ (Bindings.mem_of_find?_eq_some hr)
    have declared := Registry.respects_declare hd
    have hs' := hs.withStore declared (Registry.scoped_declare hs.store hd)
    refine hs'.binds hst hb ⟨hn.handles, hn.registries⟩ ?_
    rintro h (rfl | hh)
    · exact Registry.slot_declare hd
    · exact Nat.lt_of_lt_of_le (known h hh) declared.size
  | bind hst hb hn => exact hs.binds hst hb hn fun h => hs.knows

theorem act (hs : s.Sound) (a : Action) : (s.act a).Sound := by
  cases a with
  | perform step => exact hs.change (s.change_perform step)
  | leaveScope name => exact hs.leaveScope name
  | beginEdit name target =>
    simp only [Session.act]
    split
    · rename_i h hf
      split
      · exact hs
      · rename_i he
        exact hs.beginEdit (eq_false_of_ne_true he) (hs.handle hf) target
    · exact hs
  | endEdit i => exact hs.endEdit i

/-- Two variables do not stand for the builder of the same slot. -/
theorem eq_of_find? {other : String} {i : SlotId} (hs : s.Sound)
    (hn : s.builders.find? name = some (.slot i))
    (ho : s.builders.find? other = some (.slot i)) : name = other := by
  have : Std.Symm fun (e f : String × Site) =>
      ∀ i, e.2.slot? = some i → ∀ j, f.2.slot? = some j → i ≠ j :=
    ⟨fun e f h i hi j hj => (h j hj i hi).symm⟩
  by_contra hne
  have apart := (List.pairwise_filterMap.mp hs.distinct).forall
    (Bindings.mem_of_find?_eq_some hn) (Bindings.mem_of_find?_eq_some ho)
  exact apart (fun he => hne (congrArg Prod.fst he)) i rfl i rfl rfl

end Sound

/-- Every session that can be reached is sound. -/
theorem Reachable.sound (h : s.Reachable) : s.Sound := by
  induction h with
  | start => exact .start
  | act a _ ih => exact ih.act a

end Session

end Hypertext
