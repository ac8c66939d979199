import Hypertext.Proofs.Session.Sound

/-! # What closes a cycle

While a slot is being edited, what is added to its builder is not checked. Apart from that, content
comes to a slot only by calls that search it for the slot. The search does not look into slots that
are being edited, so it can overlook a way back to the slot: this is the only way that a checked
call closes a cycle. -/

namespace Hypertext

variable {b : Builder} {st : Store}

/-! ## Calls on builders -/

/-- A new placeholder leads nowhere after a call that brings no slots to it. -/
theorem HandleCall.slots_run_declare {r : Registry} {name : String} {d : Declared}
    (hd : r.declare name st = .ok d) {call : HandleCall Content}
    (hc : ∀ c ∈ call.content?, c.slots = []) :
    ((call.run d.handle d.store).state.builder st.size).slots = [] := by
  obtain ⟨hh, _, hst⟩ := Registry.declare_eq hd
  have new : d.handle.slot = st.size := by rw [hh]
  rw [← new]
  refine List.eq_nil_iff_forall_not_mem.mpr ?_
  intro k hk
  rcases mem_slots_run hk with hk | ⟨c, hmem, hk⟩
  · rw [hst, new, Store.builder_allocate, if_pos rfl] at hk
    cases hk
  · rw [hc c hmem] at hk
    cases hk

namespace BuilderCall

/-- No slot comes to the builder itself, or to a new slot of it, by the contents of the call. -/
def BringsNoSlots : BuilderCall Content AttributeValue String → Prop
  | .content c | .append c | .placeWith _ c => c.slots = []
  | .contents cs => ∀ c ∈ cs, c.slots = []
  | _ => True

/-- The only slot that comes to the builder is a new one, which leads nowhere. -/
theorem slots_run {call : BuilderCall Content AttributeValue String} (hc : call.BringsNoSlots)
    (b : Builder) (st : Store) {j : SlotId} (hj : j ∈ (call.run b st).state.1.slots) :
    j ∈ b.slots ∨ j = st.size ∧ ((call.run b st).state.2.builder j).slots = [] := by
  cases call with
  | tag identifier => exact .inl (by simpa [run] using hj)
  | attributes given => exact .inl (by simpa [run, Outcome.ofLogged] using hj)
  | content c | append c =>
    have hc : c.slots = [] := hc
    exact .inl (by simpa [run, Outcome.ofLogged, hc] using hj)
  | contents cs =>
    have hc : cs.flatMap Content.slots = [] := List.flatMap_eq_nil_iff.mpr hc
    exact .inl (by simpa [run, Outcome.ofLogged, hc] using hj)
  | close => exact .inl (by simpa [run] using hj)
  | script code => exact .inl (by rwa [← Builder.slots_element b "script" code])
  | style rules => exact .inl (by rwa [← Builder.slots_element b "style" rules])
  | comment text => exact .inl (by simpa [run] using hj)
  | enterScope => exact .inl (by simpa [run, Outcome.ofLogged] using hj)
  | place name =>
    rcases b.place_cases name st with ⟨e, _, hrun⟩ | ⟨d, hd, hrun⟩
    · rw [run, hrun] at hj
      exact .inl hj
    · obtain ⟨hh, _, hst⟩ := Registry.declare_eq hd
      rw [run, hrun] at hj ⊢
      rw [Builder.slots_push_slot, Builder.slots_withPlaceholders, hh] at hj
      refine (List.mem_append.mp hj).imp_right ?_
      intro hj
      obtain rfl := List.mem_singleton.mp hj
      refine ⟨rfl, ?_⟩
      rw [hst, Store.builder_allocate, if_pos rfl, Builder.slots_new]
  | placeWith name c =>
    rcases b.placeWith_cases name c st with ⟨e, _, hrun⟩ | ⟨d, hd, hst, hbuilder⟩
    · rw [run, hrun] at hj
      exact .inl hj
    · have bare : ∀ d ∈ (HandleCall.add c).content?, d.slots = [] := by
        rintro _ ⟨⟩
        exact hc
      have filled := HandleCall.slots_run_declare hd bare
      have new : d.handle.slot = st.size := by rw [(Registry.declare_eq hd).1]
      rw [run] at hj ⊢
      rw [hst]
      rcases hbuilder with hbuilder | hbuilder
      · rw [hbuilder] at hj
        exact .inl hj
      · rw [hbuilder, Builder.slots_push_slot, Builder.slots_withPlaceholders, new] at hj
        refine (List.mem_append.mp hj).imp_right ?_
        intro hj
        obtain rfl := List.mem_singleton.mp hj
        exact ⟨rfl, filled⟩
  | set name c => exact .inl hj
  | clear name => exact .inl hj
  | reset => cases hj

end BuilderCall

/-! ## Calls that overlook a way back -/

/-- The content leads back to the slot, and this goes unseen, as every way there goes through a slot
that is being edited. -/
def HandleCall.Overlooks (call : HandleCall Content) (h : Handle) (st : Store) : Prop :=
  st.isEdited h.slot = false ∧ ∃ c ∈ call.content?, c.Reaches st h.slot ∧ ¬ c.Finds st h.slot

/-- Of the calls on a builder, one that fills a placeholder may overlook a way back to it. No way
leads back to a new one. -/
def BuilderCall.Overlooks (call : BuilderCall Content AttributeValue String) (b : Builder)
    (st : Store) : Prop :=
  ∃ name c h, call = .set name c ∧ b.placeholder name = .ok h ∧ (HandleCall.set c).Overlooks h st

theorem HandleCall.acyclic_run_iff (call : HandleCall Content) {h : Handle} (ha : st.Acyclic)
    (hh : h.slot < st.size) : (call.run h st).state.Acyclic ↔ ¬ call.Overlooks h st := by
  constructor
  · rintro hr ⟨he, c, hc, reaches, unseen⟩
    rcases run_cases call h st with ⟨⟨d, hd, hf⟩, _⟩ | ⟨_, ⟨he', _⟩ | ⟨_, accepted, _⟩⟩
    · rw [Option.mem_unique hd hc] at hf
      exact unseen hf
    · rw [he] at he'
      cases he'
    · exact hr _ (reaches_self_run hh accepted hc reaches)
  · intro seen
    cases he : st.isEdited h.slot with
    | true =>
      rcases state_cases call h st with hst | ⟨_, he', _⟩
      · rwa [hst]
      · rw [he] at he'
        cases he'
    | false =>
      refine acyclic_run ha ?_
      intro c hc reaches
      by_contra unseen
      exact seen ⟨he, c, hc, reaches, unseen⟩

theorem Registry.acyclic_declare {r : Registry} {name : String} {d : Declared} (ha : st.Acyclic)
    (hs : st.Scoped) (hd : r.declare name st = .ok d) : d.store.Acyclic := by
  rw [(Registry.declare_eq hd).2.2]
  exact ha.allocate hs.closed fun j hj => nomatch hj

/-- Content from before a slot was new does not reach it. -/
theorem Registry.not_reaches_declare {r : Registry} {name : String} {d : Declared} {c : Content}
    (hs : st.Scoped) (hd : r.declare name st = .ok d) (hc : c.Within st.size) :
    ¬ c.Reaches d.store d.handle.slot := by
  obtain ⟨hh, _, hst⟩ := Registry.declare_eq hd
  have older : ∀ i, st.size ∉ (d.store.builder i).slots := by
    intro i hi
    rw [hst, Store.builder_allocate] at hi
    split at hi
    · cases hi
    · exact Nat.lt_irrefl _ ((hs i).slots _ hi)
  rw [hh]
  rintro ⟨j, hj, rfl | hr⟩
  · exact Nat.lt_irrefl _ (hc.slots _ hj)
  · obtain ⟨k, _, hk⟩ := Relation.TransGen.tail'_iff.mp hr
    exact older k hk

theorem BuilderCall.acyclic_run_iff {call : BuilderCall Content AttributeValue String}
    (ha : st.Acyclic) (hs : st.Scoped) (hb : b.Within st.size)
    (hc : call.Brings (Content.Within st.size)) :
    (call.run b st).state.2.Acyclic ↔ ¬ call.Overlooks b st := by
  cases call with
  | place name =>
    refine iff_of_true ?_ (by simp [Overlooks])
    rcases b.place_cases name st with ⟨e, _, hrun⟩ | ⟨d, hd, hrun⟩
    · rwa [run, hrun]
    · rw [run, hrun]
      exact Registry.acyclic_declare ha hs hd
  | placeWith name c =>
    refine iff_of_true ?_ (by simp [Overlooks])
    rcases b.placeWith_cases name c st with ⟨e, _, hrun⟩ | ⟨d, hd, hst, _⟩
    · rwa [run, hrun]
    · rw [run, hst]
      refine HandleCall.acyclic_run (Registry.acyclic_declare ha hs hd) ?_
      intro d' hd' reaches
      cases hd'
      exact (Registry.not_reaches_declare hs hd hc reaches).elim
  | set name c =>
    rcases state_byName (.set name c) rfl b st with ⟨e, hp, hst⟩ | ⟨h, hp, hst⟩
    · rw [hst]
      refine iff_of_true ha ?_
      rintro ⟨_, _, h, hcall, hh, _⟩
      cases hcall
      rw [hp] at hh
      cases hh
    · have known := hb.placeholders h (Builder.mem_handles_of_placeholder hp)
      have iff := HandleCall.acyclic_run_iff (.set c) ha known
      rw [hst]
      refine iff.trans (not_congr ?_)
      constructor
      · exact fun overlooks => ⟨name, c, h, rfl, hp, overlooks⟩
      · rintro ⟨_, _, _, hcall, hh, overlooks⟩
        cases hcall
        rw [hp] at hh
        cases hh
        exact overlooks
  | clear name =>
    refine iff_of_true ?_ (by simp [Overlooks])
    rcases state_byName (.clear name) rfl b st with ⟨e, _, hst⟩ | ⟨h, _, hst⟩
    · rwa [hst]
    · rw [hst]
      refine HandleCall.acyclic_run ha ?_
      intro c hc
      cases hc
  | _ => exact iff_of_true ha (by simp [Overlooks])

/-! ## Changes of a session -/

namespace Session

variable {s t u : Session} {name : String}

theorem acyclic_putBuilder (ha : s.store.Acyclic)
    (hb : ∀ i, s.builders.find? name = some (.slot i) →
      ∀ j ∈ b.slots, j ∈ (s.store.builder i).slots) :
    (s.putBuilder name b).store.Acyclic := by
  rcases s.putBuilder_cases name b with ⟨i, hf, hput⟩ | ⟨_, hput⟩
  · rw [hput]
    exact ha.put fun j hj => ha.not_reaches_of_mem (hb i hf j hj)
  · rwa [hput]

theorem acyclic_leaveScope (ha : s.store.Acyclic) (name : String) :
    (s.leaveScope name).store.Acyclic := by
  unfold leaveScope
  split
  · rename_i b hb
    refine acyclic_putBuilder ha ?_
    intro i hf j hj
    obtain ⟨site, hf', rfl⟩ := Option.map_eq_some_iff.mp hb
    rw [hf] at hf'
    cases hf'
    rwa [Builder.slots_leaveScope] at hj
  · exact ha

theorem acyclic_callBuilder {call : BuilderCall Content AttributeValue String} (hs : s.Sound)
    (ha : s.store.Acyclic) (hb : s.builder? name = some b)
    (hc : call.Brings (Content.Within s.store.size))
    (checked : ∀ i, s.builders.find? name = some (.slot i) → call.BringsNoSlots) :
    (s.callBuilder name b call).state.store.Acyclic ↔ ¬ call.Overlooks b s.store := by
  have hrun := BuilderCall.acyclic_run_iff ha hs.store (hs.builder? hb) hc
  rcases ({ s with store := (call.run b s.store).state.2 } : Session).putBuilder_cases name
    (call.run b s.store).state.1 with ⟨i, hf, hput⟩ | ⟨_, hput⟩
  · have edited := hs.edited i (mem_sites_of_find? hf)
    have kept : (call.run b s.store).state.2.builder i = b := by
      rw [(call.respects_run b s.store).builder i edited]
      obtain ⟨site, hf', rfl⟩ := Option.map_eq_some_iff.mp hb
      rw [show s.builders.find? name = some (.slot i) from hf] at hf'
      cases hf'
      rfl
    simp only [callBuilder, Outcome.map, hput]
    constructor
    · rintro hput ⟨p, c, h, rfl, hp, overlooks⟩
      -- such a call leaves the builder as it was, so to put it back changes nothing
      refine hrun.mp (hput.of_subset fun k => ?_) ⟨p, c, h, rfl, hp, overlooks⟩
      rw [Store.builder_put]
      split
      · rename_i hk
        rw [hk.1, kept]
        exact List.Subset.refl _
      · exact List.Subset.refl _
    · intro seen
      have hst := hrun.mpr seen
      refine hst.put ?_
      intro j hj
      rcases BuilderCall.slots_run (checked i hf) b s.store hj with hj | ⟨rfl, leaf⟩
      · rw [← kept] at hj
        exact hst.not_reaches_of_mem hj
      · constructor
        · rintro rfl
          rw [Store.Respects.isEdited_size] at edited
          cases edited
        · intro hr
          obtain ⟨k, hk, _⟩ := Store.reaches_iff.mp hr
          rw [leaf] at hk
          cases hk
  · simp only [callBuilder, Outcome.map, hput]
    exact hrun

theorem acyclic_call_iff {e : BuilderCall ContentExpr ValueExpr TextExpr}
    {call : BuilderCall Content AttributeValue String} (hs : s.Sound) (ha : s.store.Acyclic)
    (he : (Eval.builderCall e).Returns s call u) (hb : u.builder? name = some b)
    (checked : ∀ i, u.builders.find? name = some (.slot i) → call.BringsNoSlots) :
    (u.callBuilder name b call).state.store.Acyclic ↔ ¬ call.Overlooks b u.store := by
  obtain ⟨hu, same, within⟩ := hs.builderCall he
  rw [← same] at ha
  exact acyclic_callBuilder hu ha hb within checked

theorem acyclic_handleCall_iff {e : HandleCall ContentExpr} {call : HandleCall Content} {h : Handle}
    (hs : s.Sound) (ha : s.store.Acyclic) (he : (Eval.handleCall e).Returns s call u)
    (hh : u.handles.find? name = some h) :
    (u.callHandle h call).state.store.Acyclic ↔ ¬ call.Overlooks h u.store := by
  obtain ⟨hu, same, _⟩ := hs.handleCall he
  rw [← same] at ha
  exact HandleCall.acyclic_run_iff call ha (hu.handle hh)

end Session

/-! ## Actions -/

/-- The action brings no slots to a builder that is being edited. -/
def Action.Checked (s : Session) : Action → Prop
  | .perform (.call name e) => ∀ call u i, (Eval.builderCall e).Returns s call u →
      u.builders.find? name = some (.slot i) → call.BringsNoSlots
  | _ => True

/-- The action is a call that overlooks a way back. -/
def Action.Overlooks (s : Session) : Action → Prop
  | .perform (.call name e) => ∃ call u b, (Eval.builderCall e).Returns s call u ∧
      u.builder? name = some b ∧ call.Overlooks b u.store
  | .perform (.handleCall name e) => ∃ call u h, (Eval.handleCall e).Returns s call u ∧
      u.handles.find? name = some h ∧ call.Overlooks h u.store
  | _ => False

namespace Session

variable {s : Session} {name : String}

theorem not_acyclic_of_overlooks {a : Action} (hs : s.Sound) (ha : s.store.Acyclic)
    (hc : a.Checked s) (ho : a.Overlooks s) : ¬ (s.act a).store.Acyclic := by
  cases a with
  | perform step =>
    cases step with
    | call name e =>
      obtain ⟨call, u, b, he, hb, overlooks⟩ := ho
      rw [Session.act, session_perform_call he hb,
        acyclic_call_iff hs ha he hb fun i => hc call u i he]
      exact fun seen => seen overlooks
    | handleCall name e =>
      obtain ⟨call, u, h, he, hh, overlooks⟩ := ho
      rw [Session.act, session_perform_handleCall he hh, acyclic_handleCall_iff hs ha he hh]
      exact fun seen => seen overlooks
    | _ => exact ho.elim
  | _ => exact ho.elim

theorem acyclic_change {step : Step} {t : Session} (hs : s.Sound) (ha : s.store.Acyclic)
    (hc : (Action.perform step).Checked s) (ho : ¬ (Action.perform step).Overlooks s)
    (h : s.Change step t) : t.store.Acyclic := by
  cases h with
  | create name given => exact acyclic_putBuilder ha fun i _ j hj => nomatch hj
  | document hd =>
    refine acyclic_putBuilder ha ?_
    intro i _ j hj
    exact absurd ((Builder.Within.document hd).slots j hj) (Nat.not_lt_zero j)
  | @call name e call u b he hb =>
    rw [acyclic_call_iff hs ha he hb fun i => hc call u i he]
    exact fun overlooks => ho ⟨call, u, b, he, hb, overlooks⟩
  | share hb =>
    have within := hs.own _ _ (Bindings.mem_of_find?_eq_some hb)
    exact ha.allocate hs.store.closed within.slots
  | @handleCall name e call u h he hh =>
    rw [acyclic_handleCall_iff hs ha he hh]
    exact fun overlooks => ho ⟨call, u, h, he, hh, overlooks⟩
  | declare _ hd hst _ _ =>
    rw [hst]
    exact Registry.acyclic_declare ha hs.store hd
  | bind hst _ _ => rwa [hst]

/-- A checked action closes a cycle just if it overlooks a way back. -/
theorem acyclic_act_iff {a : Action} (hs : s.Sound) (ha : s.store.Acyclic) (hc : a.Checked s) :
    (s.act a).store.Acyclic ↔ ¬ a.Overlooks s := by
  constructor
  · exact fun hact ho => not_acyclic_of_overlooks hs ha hc ho hact
  · intro ho
    cases a with
    | perform step => exact acyclic_change hs ha hc ho (s.change_perform step)
    | leaveScope name => exact acyclic_leaveScope ha name
    | beginEdit name target =>
      simp only [Session.act]
      split
      · split
        · exact ha
        · exact ha.setEditing _ true
      · exact ha
    | endEdit i => exact ha.setEditing i false

/-- Nothing is overlooked while nothing is being edited. -/
theorem not_overlooks_of_unedited (he : ∀ i, s.store.isEdited i = false) (a : Action) :
    ¬ a.Overlooks s := by
  have sees {c : Content} {i : SlotId} (hr : c.Reaches s.store i) : c.Finds s.store i :=
    Content.leadsTo_iff.mp ((Content.leadsTo_iff_reaches he).mpr hr)
  intro ho
  cases a with
  | perform step =>
    cases step with
    | call name e =>
      obtain ⟨call, u, b, he, _, p, c, h, _, _, _, d, _, reaches, unseen⟩ := ho
      rw [(Eval.supplies_builderCall he).2.store] at reaches unseen
      exact unseen (sees reaches)
    | handleCall name e =>
      obtain ⟨call, u, h, he, _, _, d, _, reaches, unseen⟩ := ho
      rw [(Eval.supplies_handleCall he).2.store] at reaches unseen
      exact unseen (sees reaches)
    | _ => exact ho
  | _ => exact ho

/-! ## Runs -/

/-- The states that runs lead to in which every action follows the rule. -/
inductive Follows (rule : Session → Action → Prop) : Session → Prop
  | start : Follows rule {}
  | act {s : Session} (a : Action) (h : Follows rule s) (ha : rule s a) : Follows rule (s.act a)

theorem Follows.reachable {rule : Session → Action → Prop} (h : s.Follows rule) : s.Reachable := by
  induction h with
  | start => exact .start
  | act a _ _ ih => exact ih.act a

theorem Follows.mono {rule rule' : Session → Action → Prop} (h : s.Follows rule)
    (hr : ∀ s a, rule s a → rule' s a) : s.Follows rule' := by
  induction h with
  | start => exact .start
  | act a _ ha ih => exact ih.act a (hr _ _ ha)

/-- The rule of calls that are checked for cycles and overlook none. -/
def Attentive (s : Session) (a : Action) : Prop :=
  a.Checked s ∧ ¬ a.Overlooks s

theorem Follows.acyclic (h : s.Follows Attentive) : s.store.Acyclic := by
  induction h with
  | start =>
    intro i hi
    obtain ⟨j, hj, _⟩ := Store.reaches_iff.mp hi
    rw [Store.builder_of_size_le (Nat.zero_le i)] at hj
    cases hj
  | act a h ha ih => exact (acyclic_act_iff h.reachable.sound ih ha.1).mpr ha.2

/-- **What closes a cycle.** As long as slots come to slots by calls that check for cycles, there
are none unless a call overlooks a way back, and such a call closes one. A way back that the search
finds is refused, and nothing changes. -/
theorem cycles_are_overlooked (h : s.Follows Attentive) :
    s.store.Acyclic ∧
    (∀ a : Action, a.Checked s → ((s.act a).store.Acyclic ↔ ¬ a.Overlooks s)) ∧
    ∀ (call : HandleCall Content) (handle : Handle),
      (∃ c ∈ call.content?, c.Finds s.store handle.slot) →
        call.run handle s.store =
          { state := s.store, refusal := some (.selfReference handle.name) } := by
  refine ⟨h.acyclic, fun a => acyclic_act_iff h.reachable.sound h.acyclic, ?_⟩
  intro call handle hf
  rcases HandleCall.run_cases call handle s.store with ⟨_, hrun⟩ | ⟨hn, _⟩
  · exact hrun
  · obtain ⟨c, hc, hf⟩ := hf
    exact absurd hf (hn c hc)

/-- Slot B stands in slot A, which is being edited. -/
def nested : List Action :=
  [.perform (.registry "r" .create),
    .perform (.registry "r" (.declare "A" (some "a"))),
    .perform (.registry "r" (.declare "B" (some "b"))),
    .perform (.handleCall "a" (.set (.handle "b"))),
    .beginEdit "a" "x"]

/-- Meanwhile, slot B is filled with slot A. -/
def crossed : Action :=
  .perform (.handleCall "b" (.set (.handle "a")))

theorem reaches_self_crossed : ((run {} nested).act crossed).store.Reaches 0 0 := by
  have first : ((run {} nested).act crossed).store.Leads 0 1 := by
    unfold Store.Leads
    decide +kernel
  have second : ((run {} nested).act crossed).store.Leads 1 0 := by
    unfold Store.Leads
    decide +kernel
  exact .head first (.single second)

theorem follows_nested : (run {} nested).Follows Attentive := by
  have unedited : ∀ i, (run {} (nested.take 3)).store.isEdited i = false := by
    intro i
    match i with
    | 0 | 1 => decide +kernel
    | i + 2 => rfl
  simp only [nested, run_cons, run_nil]
  refine .act _ (.act _ (.act _ (.act _ (.act _ .start ?_) ?_) ?_) ?_) ?_
  · exact ⟨trivial, id⟩
  · exact ⟨trivial, id⟩
  · exact ⟨trivial, id⟩
  · exact ⟨trivial, not_overlooks_of_unedited unedited _⟩
  · exact ⟨trivial, id⟩

theorem cycles_are_overlooked_nested :
    (run {} nested).Follows Attentive ∧ (run {} nested).store.Acyclic ∧
      crossed.Overlooks (run {} nested) := by
  obtain ⟨acyclic, closes, _⟩ := cycles_are_overlooked follows_nested
  refine ⟨follows_nested, acyclic, ?_⟩
  by_contra seen
  exact (closes crossed trivial).mpr seen 0 reaches_self_crossed

/-- A call on a slot that is not being edited closes a cycle through one that is. -/
theorem cycle_past_edit :
    ((run {} nested).act crossed).Follows (fun s a => a.Checked s) ∧
      (run {} nested).store.isEdited 1 = false ∧
      ¬ ((run {} nested).act crossed).store.Acyclic := by
  refine ⟨?_, by decide +kernel, fun h => h 0 reaches_self_crossed⟩
  exact (follows_nested.mono fun _ _ h => h.1).act _ trivial

end Session

end Hypertext
