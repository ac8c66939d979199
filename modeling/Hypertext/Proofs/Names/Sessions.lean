import Hypertext.Proofs.Names.Builders
import Hypertext.Proofs.Session.Refusals

/-! # Names in a session

As long as no shared builder's handle is used as content, every builder of a session has its names
in order: those in variables, those in slots and those that were copied or moved. -/

namespace Hypertext

variable {b : Builder} {st : Store}

/-! ## Stores -/

/-- The builders of all slots have their names in order. -/
def Store.Named (st : Store) : Prop :=
  ∀ i, (st.builder i).Named

namespace Store.Named

theorem put (hs : st.Named) (hb : b.Named) (i : SlotId) : (st.put i b).Named :=
  forall_put hs hb i

theorem allocate (hs : st.Named) (hb : b.Named) : (st.allocate b).Named :=
  forall_allocate hs hb

theorem setEditing (hs : st.Named) (i : SlotId) (editing : Bool) :
    (st.setEditing i editing).Named :=
  forall_setEditing hs i editing

theorem declare {r : Registry} {name : String} {d : Declared} (hs : st.Named)
    (hd : r.declare name st = .ok d) : d.store.Named := by
  rw [(Registry.declare_eq hd).2.2]
  exact hs.allocate (.new name)

end Store.Named

/-! ## Calls -/

namespace HandleCall

theorem Permitted.mp {p q : Content → Prop} {call : HandleCall Content}
    (h : call.Permitted fun c => p c → q c) (hp : call.Permitted p) : call.Permitted q := by
  cases call with
  | set c | add c => exact h hp
  | clear => trivial

theorem named_run {call : HandleCall Content} (hs : st.Named) (hc : call.Permitted Content.Named)
    (h : Handle) : (call.run h st).state.Named := by
  rcases state_cases call h st with hst | ⟨_, _, base, hb, hst⟩
  · rwa [hst]
  · have based : base.Named := by
      rcases hb with rfl | rfl
      · exact hs h.slot
      · exact .new _
    rw [hst]
    refine hs.put ?_ h.slot
    cases hcall : call.content? with
    | none => exact based
    | some c => exact based.content (permitted_iff.mp hc c hcall) st

end HandleCall

namespace BuilderCall

variable {call : BuilderCall Content AttributeValue String}

theorem Brings.mp {p q : Content → Prop} (h : call.Brings fun c => p c → q c)
    (hp : call.Brings p) : call.Brings q := by
  cases call with
  | content c | append c | placeWith _ c | set _ c => exact h hp
  | contents cs => exact fun c hc => h c hc (hp c hc)
  | _ => exact hp

theorem named_byName {name : String} {c : HandleCall Content} (hn : call.byName? = some (name, c))
    (hb : b.Named) (hs : st.Named) (hc : c.Permitted Content.Named) :
    (call.run b st).state.1.Named ∧ (call.run b st).state.2.Named := by
  rcases call.state_byName hn b st with ⟨e, _, hst⟩ | ⟨h, _, hst⟩
  · rw [hst]
    exact ⟨hb, hs⟩
  · rw [hst]
    exact ⟨hb, HandleCall.named_run hs hc h⟩

/-- A new placeholder is embedded where its name is filed. -/
theorem named_push_declare {name : String} {d : Declared} (hb : b.Named)
    (hd : b.placeholders.declare name st = .ok d) :
    ({ b with placeholders := d.registry }.push (.slot d.handle)).Named := by
  obtain ⟨hh, hr, _⟩ := Registry.declare_eq hd
  have named : d.handle.name = name := by rw [hh]
  have placeholder : d.handle.isPlaceholder = true := by rw [hh]
  have inserted := hb.insert placeholder
  rw [named, ← hr] at inserted
  exact inserted

theorem named_run (hb : b.Named) (hs : st.Named) (hst : st.Scoped)
    (within : call.Brings (Content.Within st.size)) (hc : call.Brings Content.Named) :
    (call.run b st).state.1.Named ∧ (call.run b st).state.2.Named := by
  cases call with
  | tag identifier => exact ⟨hb.tag identifier, hs⟩
  | attributes given => exact ⟨hb.giveAttributes _, hs⟩
  | content c => exact ⟨hb.content hc st, hs⟩
  | contents cs => exact ⟨hb.contents hc st, hs⟩
  | append c => exact ⟨hb.append hc st, hs⟩
  | close => exact ⟨hb.close, hs⟩
  | script code => exact ⟨hb.element "script" code, hs⟩
  | style rules => exact ⟨hb.element "style" rules, hs⟩
  | comment text => exact ⟨hb.pushPiece _, hs⟩
  | enterScope => exact ⟨hb.enterScope, hs⟩
  | place name =>
    rcases b.place_cases name st with ⟨e, _, hrun⟩ | ⟨d, hd, hrun⟩
    · rw [run, hrun]
      exact ⟨hb, hs⟩
    · rw [run, hrun]
      exact ⟨named_push_declare hb hd, hs.declare hd⟩
  | placeWith name c =>
    simp only [run]
    cases known : b.placeholders.contains name with
    | true =>
      rw [Builder.placeWith_of_contains known]
      exact ⟨hb, hs⟩
    | false =>
      obtain ⟨d, hd, hplace⟩ := Builder.placeWith_of_new known hst within
      have filling : (HandleCall.add c).Permitted Content.Named := hc
      rw [hplace]
      exact ⟨named_push_declare hb hd, HandleCall.named_run (hs.declare hd) filling d.handle⟩
  | set name c => exact named_byName rfl hb hs hc
  | clear name => exact named_byName rfl hb hs trivial
  | reset => exact ⟨.new b.name, hs⟩

end BuilderCall

/-! ## Sessions -/

/-- The content is not a shared builder's handle. -/
def Content.Unshared : Content → Prop
  | .slot h => h.isPlaceholder = true
  | .empty | .text _ | .markup _ | .snippet _ => True

/-- No shared builder's handle is used as content. -/
def Action.Unshared (s : Session) : Action → Prop
  | .perform (.call _ e) => ∀ call u, (Eval.builderCall e).Returns s call u →
      call.Brings Content.Unshared
  | .perform (.handleCall _ e) => ∀ call u, (Eval.handleCall e).Returns s call u →
      call.Permitted Content.Unshared
  | _ => True

namespace Session

variable {s t u : Session} {name : String}

/-- The builder is in a slot, or in a variable of its own. -/
def Holds (s : Session) (b : Builder) : Prop :=
  (∃ i < s.store.size, b = s.store.builder i) ∨ ∃ name, (name, Site.own b) ∈ s.builders.entries

/-- The builder that a variable stands for is held. -/
theorem Sound.holds (hs : s.Sound) (h : s.builder? name = some b) : s.Holds b := by
  obtain ⟨site, hf, rfl⟩ := Option.map_eq_some_iff.mp h
  cases site with
  | own b => exact .inr ⟨name, Bindings.mem_of_find?_eq_some hf⟩
  | slot i =>
    have edited := hs.edited i (mem_sites_of_find? hf)
    exact .inl ⟨i, Store.lt_size_of_isEdited edited, rfl⟩

/-- All builders have their names in order. -/
structure Named (s : Session) : Prop where
  store : s.store.Named
  own : ∀ name b, (name, Site.own b) ∈ s.builders.entries → b.Named

namespace Named

theorem start : ({} : Session).Named where
  store i := by
    rw [Store.builder_of_size_le (Nat.zero_le i)]
    exact .new ""
  own _ _ h := nomatch h

theorem builderAt {site : Site} (hs : s.Named) (h : (name, site) ∈ s.builders.entries) :
    (s.builderAt site).Named := by
  cases site with
  | own b => exact hs.own name b h
  | slot i => exact hs.store i

theorem builder? (hs : s.Named) (h : s.builder? name = some b) : b.Named := by
  obtain ⟨site, hf, rfl⟩ := Option.map_eq_some_iff.mp h
  exact hs.builderAt (Bindings.mem_of_find?_eq_some hf)

theorem sheds (hs : s.Named) (h : s.Sheds u) : u.Named where
  store := by rw [h.store]; exact hs.store
  own name b he := hs.own name b (h.builders.mem he)

theorem putBuilder (hs : s.Named) (hb : b.Named) (name : String) : (s.putBuilder name b).Named := by
  rcases s.putBuilder_cases name b with ⟨i, _, hput⟩ | ⟨_, hput⟩
  · rw [hput]
    exact ⟨hs.store.put hb i, hs.own⟩
  · rw [hput]
    refine ⟨hs.store, ?_⟩
    intro n c he
    rcases Bindings.mem_insert_own he with rfl | he
    · exact hb
    · exact hs.own n c he

theorem leaveScope (hs : s.Named) (name : String) : (s.leaveScope name).Named := by
  unfold Session.leaveScope
  split
  · rename_i b hb
    exact hs.putBuilder (hs.builder? hb).leaveScope name
  · exact hs

/-- What a variable stands for has its names in order, unless it is a shared builder's handle. -/
theorem supplies {c : Content} (hs : s.Named) (hc : s.Supplies c) (shared : c.Unshared) :
    c.Named := by
  cases c with
  | slot h => exact shared
  | snippet b =>
    obtain ⟨name, site, he, rfl | rfl⟩ := hc
    · exact hs.builderAt he
    · exact (hs.builderAt he).snapshot
  | empty | text | markup => trivial

theorem change {step : Step} (hs : s.Named) (sound : s.Sound)
    (hu : (Action.perform step).Unshared s) (h : s.Change step t) : t.Named := by
  cases h with
  | create name given => exact hs.putBuilder (.new _) name
  | document hd => exact hs.putBuilder (.of_within_zero (Builder.Within.document hd)) _
  | @call name e call u b he hb =>
    obtain ⟨supplied, sheds⟩ := Eval.supplies_builderCall he
    obtain ⟨soundu, _, within⟩ := sound.builderCall he
    have hsu := hs.sheds sheds
    have named : call.Brings Content.Named :=
      (supplied.mono fun c => hs.supplies).mp (hu call u he)
    obtain ⟨hb, hst⟩ := BuilderCall.named_run (hsu.builder? hb) hsu.store soundu.store within named
    have hst : ({ u with store := (call.run b u.store).state.2 } : Session).Named := ⟨hst, hsu.own⟩
    exact hst.putBuilder hb name
  | @share name target b hb =>
    have hb := hs.own _ _ (Bindings.mem_of_find?_eq_some hb)
    refine ⟨hs.store.allocate hb, ?_⟩
    intro n c he
    exact hs.own n c (List.mem_of_mem_eraseP he)
  | @handleCall name e call u h he hh =>
    obtain ⟨supplied, sheds⟩ := Eval.supplies_handleCall he
    have hsu := hs.sheds sheds
    have named : call.Permitted Content.Named :=
      (supplied.mono fun c => hs.supplies).mp (hu call u he)
    exact ⟨HandleCall.named_run hsu.store named h, hsu.own⟩
  | declare hr hd hst hb hn =>
    refine ⟨?_, by rw [hb]; exact hs.own⟩
    rw [hst]
    exact hs.store.declare hd
  | bind hst hb hn => exact ⟨by rw [hst]; exact hs.store, by rw [hb]; exact hs.own⟩

theorem act {a : Action} (hs : s.Named) (sound : s.Sound) (hu : a.Unshared s) :
    (s.act a).Named := by
  cases a with
  | perform step => exact hs.change sound hu (s.change_perform step)
  | leaveScope name => exact hs.leaveScope name
  | beginEdit name target =>
    simp only [Session.act]
    split
    · split
      · exact hs
      · exact ⟨hs.store.setEditing _ true, fun n b he => hs.own n b (Bindings.mem_push_slot he)⟩
    · exact hs
  | endEdit i =>
    exact ⟨hs.store.setEditing i false, fun n b he => hs.own n b (List.mem_of_mem_filter he)⟩

theorem holds (hs : s.Named) (hb : s.Holds b) : b.Named := by
  rcases hb with ⟨i, _, rfl⟩ | ⟨name, he⟩
  · exact hs.store i
  · exact hs.own name b he

end Named

theorem Follows.named (h : s.Follows fun s a => a.Unshared s) : s.Named := by
  induction h with
  | start => exact .start
  | act a h ha ih => exact ih.act h.reachable.sound ha

/-- **A name addresses the placeholder that was embedded last.** As long as no shared builder's
handle is used as content, the names that a builder knows, in a slot or in a variable, are those of
the placeholders among its fragments, each of them filed once and under its own name. By a name, it
gives out the handle that stands last under that name. A builder that embeds it finds the same slots
in whatever order it adopts the placeholders. -/
theorem names_address_last (hs : s.Follows fun s a => a.Unshared s) (hb : s.Holds b) :
    (∀ name, name ∈ b.placeholders.names ↔
      ∃ h, .slot h ∈ b.fragments.toList ∧ h.isPlaceholder = true ∧ h.name = name) ∧
    b.placeholders.names.Nodup ∧
    (∀ e ∈ b.placeholders.entries, e.2.name = e.1 ∧ e.2.isPlaceholder = true) ∧
    (∀ name h, b.placeholder name = .ok h ↔
      ∃ before after, b.fragments.toList = before ++ .slot h :: after ∧ h.name = name ∧
        ∀ g, .slot g ∈ after → g.name ≠ name) ∧
    ∀ (host : Registry) (order : List Handle), order.Perm b.placeholders.handles →
      ∀ name, (order.foldlM Registry.adopt host).value.slot? name =
        (host.merge b.placeholders).value.slot? name := by
  have named := hs.named.holds hb
  refine ⟨named.mem_names_iff, named.filed.once, ?_, fun _ _ => named.placeholder_eq_ok_iff, ?_⟩
  · intro e he
    exact ⟨named.filed.own e he, named.known e.2 (List.mem_map_of_mem he)⟩
  · intro host order perm name
    rw [Registry.slot?_merge named.filed, Registry.slot?_merge_of_perm named.filed perm]

/-- A builder places A and embeds it again; then it embeds another one with an A of its own. -/
def collidingNames : List Action :=
  [.perform (.create "host" none),
    .perform (.call "host" (.place "A")),
    .perform (.placeholder "host" "A" "a"),
    .perform (.call "host" (.append (.handle "a"))),
    .perform (.create "snippet" none),
    .perform (.call "snippet" (.placeWith "A" (.text (.literal "x")))),
    .perform (.call "host" (.append (.move "snippet")))]

theorem follows_collidingNames : (run {} collidingNames).Follows fun s a => a.Unshared s := by
  have handle : (run {} (collidingNames.take 3)).handles.find? "a" = some ⟨"A", 0, true⟩ := by
    decide +kernel
  simp only [collidingNames, run_cons, run_nil]
  refine .act _ (.act _ (.act _ (.act _ (.act _ (.act _ (.act _ .start ?_) ?_) ?_) ?_) ?_) ?_) ?_
  · trivial
  · intro call u he
    rw [(Eval.returns_pure.mp he).1]
    trivial
  · trivial
  · intro call u he
    obtain ⟨c, hc, rfl⟩ := Eval.returns_map.mp he
    obtain ⟨h, hh, rfl⟩ := Eval.returns_map.mp hc
    obtain ⟨hf, _⟩ := Eval.returns_handle.mp hh
    cases handle.symm.trans hf
    rfl
  · trivial
  · intro call u he
    obtain ⟨c, hc, rfl⟩ := Eval.returns_map.mp he
    obtain ⟨text, _, rfl⟩ := Eval.returns_map.mp hc
    trivial
  · intro call u he
    obtain ⟨c, hc, rfl⟩ := Eval.returns_map.mp he
    obtain ⟨b, _, rfl⟩ := Eval.returns_map.mp hc
    trivial

theorem names_address_last_colliding :
    (run {} collidingNames).Follows (fun s a => a.Unshared s) ∧
    ∃ b, (run {} collidingNames).Holds b ∧ b.placeholders.names = ["A"] ∧
      b.fragments = #[.slot ⟨"A", 0, true⟩, .slot ⟨"A", 0, true⟩, .slot ⟨"A", 1, true⟩] ∧
      b.placeholder "A" = .ok ⟨"A", 1, true⟩ := by
  have host : (run {} collidingNames).builder? "host" = some
      { name := "E Builder"
        fragments := #[.slot ⟨"A", 0, true⟩, .slot ⟨"A", 0, true⟩, .slot ⟨"A", 1, true⟩]
        placeholders := { entries := [("A", ⟨"A", 1, true⟩)] } } := by
    decide +kernel
  have held := follows_collidingNames.reachable.sound.holds host
  obtain ⟨_, _, _, addressed, _⟩ := names_address_last follows_collidingNames held
  refine ⟨follows_collidingNames, _, held, rfl, rfl, (addressed "A" _).mpr ?_⟩
  exact ⟨[.slot ⟨"A", 0, true⟩, .slot ⟨"A", 0, true⟩], [], rfl, rfl, fun _ hg => nomatch hg⟩

end Session

end Hypertext
