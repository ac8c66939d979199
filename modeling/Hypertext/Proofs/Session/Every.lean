import Hypertext.Proofs.Session.Sound

/-! # Properties of all builders

What is true of new builders and documents, and stays true with every call and at the end of every
scope, is true of all builders of a session: of those in variables, and of those in slots, which are
changed by calls on their handles too. A call may rely on the contents that it brings, which stand
for builders of the same session. -/

namespace Hypertext

/-- The builders of all slots have the property. -/
def Store.Every (P : Builder → Prop) (st : Store) : Prop :=
  ∀ i, P (st.builder i)

/-- All builders of the session have the property. -/
structure Session.Every (P : Builder → Prop) (s : Session) : Prop where
  store : s.store.Every P
  own : ∀ name b, (name, Site.own b) ∈ s.builders.entries → P b

/-- What happens to a builder keeps the property `P`; calls do if what they bring has the property
`Q`, as all contents from a session of such builders have. -/
structure Builder.Kept (P : Builder → Prop) (Q : Content → Prop) : Prop where
  new (name : String) : P { name }
  document {config : DocumentConfig} {doc : Logged Builder}
    (h : Hypertext.document config = .ok doc) : P doc.value
  call (call : BuilderCall Content AttributeValue String) {b : Builder} {st : Store} (hb : P b)
    (hs : st.Every P) (hc : call.Brings Q) : P (call.run b st).state.1
  leaveScope {b : Builder} (hb : P b) : P b.leaveScope
  supplied {s : Session} {c : Content} (hs : s.Every P) (hc : s.Supplies c) : Q c

variable {P : Builder → Prop} {Q : Content → Prop} {b : Builder} {st : Store}

/-! ## Slots -/

namespace Builder.Kept

theorem declare (hk : Kept P Q) (hs : st.Every P) {r : Registry} {name : String} {d : Declared}
    (hd : r.declare name st = .ok d) : d.store.Every P := by
  rw [(Registry.declare_eq hd).2.2]
  exact Store.forall_allocate hs (hk.new name)

/-- A call on a handle is a call on the slot's builder, which may be reset before. -/
theorem handleCall (hk : Kept P Q) (hs : st.Every P) {call : HandleCall Content}
    (hc : call.Permitted Q) (h : Handle) : (call.run h st).state.Every P := by
  rcases HandleCall.state_cases call h st with hst | ⟨_, _, base, hb, hst⟩
  · rwa [hst]
  · have based : P base := by
      rcases hb with rfl | rfl
      · exact hs h.slot
      · exact hk.call .reset (hs h.slot) hs trivial
    rw [hst]
    refine Store.forall_put hs ?_ h.slot
    cases hcall : call.content? with
    | none => exact based
    | some c => exact hk.call (.content c) based hs (HandleCall.permitted_iff.mp hc c hcall)

theorem byName (hk : Kept P Q) (hs : st.Every P)
    {call : BuilderCall Content AttributeValue String} {name : String} {c : HandleCall Content}
    (hn : call.byName? = some (name, c)) (hc : c.Permitted Q) (b : Builder) :
    (call.run b st).state.2.Every P := by
  rcases call.state_byName hn b st with ⟨e, _, hst⟩ | ⟨h, _, hst⟩
  · rwa [hst]
  · rw [hst]
    exact hk.handleCall hs hc h

/-- A call on a builder keeps the property in the slots too. -/
theorem store (hk : Kept P Q) (hs : st.Every P)
    {call : BuilderCall Content AttributeValue String} (hc : call.Brings Q) (b : Builder) :
    (call.run b st).state.2.Every P := by
  cases call with
  | place name =>
    rcases b.place_cases name st with ⟨e, _, hrun⟩ | ⟨d, hd, hrun⟩
    · rwa [BuilderCall.run, hrun]
    · rw [BuilderCall.run, hrun]
      exact hk.declare hs hd
  | placeWith name c =>
    rcases b.placeWith_cases name c st with ⟨e, _, hrun⟩ | ⟨d, hd, hst, _⟩
    · rwa [BuilderCall.run, hrun]
    · have filling : (HandleCall.add c).Permitted Q := hc
      rw [BuilderCall.run, hst]
      exact hk.handleCall (hk.declare hs hd) filling d.handle
  | set name c =>
    have filling : (HandleCall.set c).Permitted Q := hc
    exact hk.byName hs rfl filling b
  | clear name =>
    have emptying : (HandleCall.clear : HandleCall Content).Permitted Q := trivial
    exact hk.byName hs rfl emptying b
  | _ => exact hs

end Builder.Kept

/-! ## Sessions -/

namespace Session.Every

open Builder (Kept)

variable {s t u : Session} {name : String}

theorem mono {R : Builder → Prop} (hs : s.Every P) (hr : ∀ b, P b → R b) : s.Every R :=
  ⟨fun i => hr _ (hs.store i), fun name b hb => hr b (hs.own name b hb)⟩

theorem start (hk : Kept P Q) : ({} : Session).Every P where
  store i := by
    rw [Store.builder_of_size_le (Nat.zero_le i)]
    exact hk.new ""
  own _ _ h := nomatch h

theorem builderAt {site : Site} (hs : s.Every P) (h : (name, site) ∈ s.builders.entries) :
    P (s.builderAt site) := by
  cases site with
  | own b => exact hs.own name b h
  | slot i => exact hs.store i

theorem builder? (hs : s.Every P) (h : s.builder? name = some b) : P b := by
  obtain ⟨site, hf, rfl⟩ := Option.map_eq_some_iff.mp h
  exact hs.builderAt (Bindings.mem_of_find?_eq_some hf)

theorem sheds (hs : s.Every P) (h : s.Sheds u) : u.Every P where
  store := by rw [h.store]; exact hs.store
  own name b he := hs.own name b (h.builders.mem he)

theorem putBuilder (hs : s.Every P) (hb : P b) (name : String) : (s.putBuilder name b).Every P := by
  rcases s.putBuilder_cases name b with ⟨i, _, hput⟩ | ⟨_, hput⟩
  · rw [hput]
    exact ⟨Store.forall_put hs.store hb i, hs.own⟩
  · rw [hput]
    refine ⟨hs.store, ?_⟩
    intro n c he
    rcases Bindings.mem_insert_own he with rfl | he
    · exact hb
    · exact hs.own n c he

theorem leaveScope (hs : s.Every P) (hk : Kept P Q) (name : String) :
    (s.leaveScope name).Every P := by
  unfold Session.leaveScope
  split
  · rename_i b hb
    exact hs.putBuilder (hk.leaveScope (hs.builder? hb)) name
  · exact hs

theorem change {step : Step} (hs : s.Every P) (hk : Kept P Q) (h : s.Change step t) :
    t.Every P := by
  cases h with
  | create name given => exact hs.putBuilder (hk.new _) name
  | document hd => exact hs.putBuilder (hk.document hd) _
  | @call name e call u b he hb =>
    obtain ⟨supplied, sheds⟩ := Eval.supplies_builderCall he
    have hc : call.Brings Q := supplied.mono fun c => hk.supplied hs
    have hu := hs.sheds sheds
    have called : ({ u with store := (call.run b u.store).state.2 } : Session).Every P :=
      ⟨hk.store hu.store hc b, hu.own⟩
    exact called.putBuilder (hk.call call (hu.builder? hb) hu.store hc) name
  | @share name target b hb =>
    have hb := hs.own _ _ (Bindings.mem_of_find?_eq_some hb)
    refine ⟨Store.forall_allocate hs.store hb, ?_⟩
    intro n c he
    exact hs.own n c (List.mem_of_mem_eraseP he)
  | @handleCall name e call u h he hh =>
    obtain ⟨supplied, sheds⟩ := Eval.supplies_handleCall he
    have hc : call.Permitted Q := supplied.mono fun c => hk.supplied hs
    have hu := hs.sheds sheds
    exact ⟨hk.handleCall hu.store hc h, hu.own⟩
  | declare hr hd hst hb hn =>
    refine ⟨?_, by rw [hb]; exact hs.own⟩
    rw [hst]
    exact hk.declare hs.store hd
  | bind hst hb hn => exact ⟨by rw [hst]; exact hs.store, by rw [hb]; exact hs.own⟩

theorem act (hs : s.Every P) (hk : Kept P Q) (a : Action) : (s.act a).Every P := by
  cases a with
  | perform step => exact hs.change hk (s.change_perform step)
  | leaveScope name => exact hs.leaveScope hk name
  | beginEdit name target =>
    simp only [Session.act]
    split
    · split
      · exact hs
      · exact ⟨Store.forall_setEditing hs.store _ true,
          fun n b he => hs.own n b (Bindings.mem_push_slot he)⟩
    · exact hs
  | endEdit i =>
    exact ⟨Store.forall_setEditing hs.store i false,
      fun n b he => hs.own n b (List.mem_of_mem_filter he)⟩

end Session.Every

/-- What is kept is true of all builders of every session that can be reached. -/
theorem Session.Reachable.every {s : Session} (h : s.Reachable) (hk : Builder.Kept P Q) :
    s.Every P := by
  induction h with
  | start => exact .start hk
  | act a _ ih => exact ih.act hk a

end Hypertext
