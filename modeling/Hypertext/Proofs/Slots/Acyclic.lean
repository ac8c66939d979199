import Hypertext.Placeholder
import Hypertext.Proofs.Slots.Laws
import Hypertext.Proofs.Slots.Search
import Hypertext.Session.Call

/-! # Changes to the graph of slots

A change to one slot closes a cycle just if what is put there leads back to it. So the graph stays
without cycles when slots are emptied, when new ones come, and when a slot is filled with what does
not reach it. -/

namespace Hypertext

namespace Store

variable {st st' : Store} {i j : SlotId} {b : Builder}

/-- A slot reaches another one through the first slot that stands in it. -/
theorem reaches_iff : st.Reaches i j ↔ ∃ k ∈ (st.builder i).slots, k = j ∨ st.Reaches k j := by
  constructor
  · intro h
    rcases Relation.TransGen.head'_iff.mp h with ⟨k, hk, h⟩
    exact ⟨k, hk, (Relation.reflTransGen_iff_eq_or_transGen.mp h).imp_left Eq.symm⟩
  · rintro ⟨k, hk, rfl | h⟩
    · exact .single hk
    · exact .head hk h

/-- Where slots only go away, no cycle comes up. -/
theorem Acyclic.of_subset (ha : st.Acyclic)
    (h : ∀ i, (st'.builder i).slots ⊆ (st.builder i).slots) : st'.Acyclic := by
  intro i hi
  exact ha i (Relation.TransGen.mono (fun k _ hk => h k hk) _ _ hi)

theorem Acyclic.setEditing (ha : st.Acyclic) (i : SlotId) (editing : Bool) :
    (st.setEditing i editing).Acyclic :=
  ha.of_subset fun j => by rw [builder_setEditing]; exact List.Subset.refl _

/-! ## One slot changes -/

/-- A way to the slot that changes does not need what the slot holds. -/
theorem reaches_of_others (h : ∀ k ≠ i, st'.builder k = st.builder k) (hj : st'.Reaches j i) :
    j = i ∨ st.Reaches j i := by
  induction hj using Relation.TransGen.head_induction_on with
  | @single j hl =>
    by_cases hji : j = i
    · exact .inl hji
    · rw [Leads, h j hji] at hl
      exact .inr (.single hl)
  | @head j k hl _ ih =>
    by_cases hji : j = i
    · exact .inl hji
    · rw [Leads, h j hji] at hl
      rcases ih with rfl | ih
      · exact .inr (.single hl)
      · exact .inr (.head hl ih)

/-- A way either was there before the slot changed, or it goes through that slot. -/
theorem reaches_through (h : ∀ k ≠ i, st'.builder k = st.builder k) {x y : SlotId}
    (hxy : st'.Reaches x y) :
    st.Reaches x y ∨ (x = i ∨ st'.Reaches x i) ∧ st'.Reaches i y := by
  induction hxy with
  | @single y hl =>
    by_cases hx : x = i
    · exact .inr ⟨.inl hx, hx ▸ .single hl⟩
    · rw [Leads, h x hx] at hl
      exact .inl (.single hl)
  | @tail z y hz hl ih =>
    by_cases hzi : z = i
    · exact .inr ⟨.inr (hzi ▸ hz), hzi ▸ .single hl⟩
    · rcases ih with ih | ⟨hx, hi⟩
      · have hl' : st.Leads z y := by rwa [Leads, h z hzi] at hl
        exact .inl (ih.tail hl')
      · exact .inr ⟨hx, hi.tail hl⟩

theorem Acyclic.of_others (ha : st.Acyclic) (h : ∀ k ≠ i, st'.builder k = st.builder k)
    (hi : ∀ j ∈ (st'.builder i).slots, j ≠ i ∧ ¬ st.Reaches j i) : st'.Acyclic := by
  have free : ¬ st'.Reaches i i := by
    intro hc
    obtain ⟨j, hj, hji⟩ := reaches_iff.mp hc
    obtain ⟨hne, hnr⟩ := hi j hj
    rcases hji with hji | hji
    · exact hne hji
    · exact (reaches_of_others h hji).elim hne hnr
  -- a cycle was there before, or it goes through the slot that changed
  intro x hx
  rcases reaches_through h hx with hx | ⟨rfl | hxi, hix⟩
  · exact ha x hx
  · exact free hix
  · exact free (hix.trans hxi)

theorem Acyclic.not_reaches_of_mem (ha : st.Acyclic) (hj : j ∈ (st.builder i).slots) :
    j ≠ i ∧ ¬ st.Reaches j i :=
  ⟨fun h => ha i (.single (h ▸ hj)), fun h => ha i (.head hj h)⟩

theorem builder_put_self (hi : i < st.size) (b : Builder) : (st.put i b).builder i = b := by
  rw [builder_put, if_pos ⟨rfl, hi⟩]

theorem builder_put_of_ne (st : Store) (hj : j ≠ i) (b : Builder) :
    (st.put i b).builder j = st.builder j := by
  rw [builder_put, if_neg fun h => hj h.1]

theorem Acyclic.put (ha : st.Acyclic) (hb : ∀ j ∈ b.slots, j ≠ i ∧ ¬ st.Reaches j i) :
    (st.put i b).Acyclic := by
  refine ha.of_others (fun k hk => builder_put_of_ne st hk b) ?_
  rw [builder_put]
  split
  · exact hb
  · exact fun j hj => ha.not_reaches_of_mem hj

/-- What leads back to the slot closes a cycle there. -/
theorem reaches_self_put (hi : i < st.size) (hj : j ∈ b.slots) (h : j = i ∨ st.Reaches j i) :
    (st.put i b).Reaches i i := by
  have before : ∀ k ≠ i, st.builder k = (st.put i b).builder k :=
    fun k hk => (builder_put_of_ne st hk b).symm
  refine reaches_iff.mpr ⟨j, by rwa [builder_put_self hi], ?_⟩
  rcases h with h | h
  · exact .inl h
  · exact reaches_of_others before h

/-! ## A new slot -/

/-- Only slots of the store stand in its slots. -/
def Closed (st : Store) : Prop :=
  ∀ i, ∀ j ∈ (st.builder i).slots, j < st.size

theorem Closed.lt_of_reaches (hc : st.Closed) (h : st.Reaches i j) : j < st.size := by
  obtain ⟨k, _, hk⟩ := Relation.TransGen.tail'_iff.mp h
  exact hc k j hk

theorem Acyclic.allocate (ha : st.Acyclic) (hc : st.Closed) (hb : ∀ j ∈ b.slots, j < st.size) :
    (st.allocate b).Acyclic := by
  have old : ∀ k ≠ st.size, (st.allocate b).builder k = st.builder k := by
    intro k hk
    rw [builder_allocate, if_neg hk]
  refine ha.of_others old ?_
  rw [builder_allocate, if_pos rfl]
  intro j hj
  refine ⟨Nat.ne_of_lt (hb j hj), ?_⟩
  intro h
  exact Nat.lt_irrefl _ (hc.lt_of_reaches h)

end Store

/-! ## Calls on handles -/

/-- The content that the call brings. -/
def HandleCall.content? {γ : Type} : HandleCall γ → Option γ
  | .set c | .add c => some c
  | .clear => none

namespace HandleCall

variable {st : Store} {h : Handle}

/-- A call that brings content to a slot from which it is found is refused, and so is every other
one while the slot is being edited. Any other call adds the content, if it brings some, to what the
slot holds or to nothing. -/
theorem run_cases (call : HandleCall Content) (h : Handle) (st : Store) :
    ((∃ c ∈ call.content?, c.Finds st h.slot) ∧
      call.run h st = { state := st, refusal := some (.selfReference h.name) }) ∨
    (∀ c ∈ call.content?, ¬ c.Finds st h.slot) ∧
      (st.isEdited h.slot = true ∧
          call.run h st = { state := st, refusal := some (.slotBusy h.name) } ∨
        st.isEdited h.slot = false ∧ (call.run h st).refusal = none ∧
          ∃ base, (base = st.builder h.slot ∨ base = (st.builder h.slot).reset) ∧
            (call.run h st).state = st.put h.slot
              (call.content?.elim base fun c => (base.content c st).value)) := by
  have checked (c : Content) : c.leadsTo st h.slot = false ↔ ¬ c.Finds st h.slot := by
    rw [← Content.leadsTo_iff, Bool.not_eq_true]
  cases call with
  | clear =>
    right
    constructor
    · intro c hc
      cases hc
    · cases he : st.isEdited h.slot with
      | true => exact .inl ⟨rfl, by simp [run, Handle.clear, he]⟩
      | false => exact .inr ⟨rfl, by simp [run, Handle.clear, he], _, .inr rfl,
          by simp [run, Handle.clear, he, content?]⟩
  | set c | add c =>
    cases hl : c.leadsTo st h.slot with
    | true =>
      left
      refine ⟨⟨c, rfl, Content.leadsTo_iff.mp hl⟩, ?_⟩
      simp [run, Handle.set, Handle.add, Handle.refusal?, hl]
    | false =>
      right
      constructor
      · intro d hd
        cases hd
        exact (checked c).mp hl
      · cases he : st.isEdited h.slot with
        | true =>
          left
          exact ⟨rfl, by simp [run, Handle.set, Handle.add, Handle.refusal?, hl, he]⟩
        | false =>
          right
          refine ⟨rfl, by simp [run, Handle.set, Handle.add, Handle.refusal?, hl, he], ?_⟩
          simp [run, Handle.set, Handle.add, Handle.refusal?, hl, he, content?]

/-- A refused call leaves the store as it was. -/
theorem state_cases (call : HandleCall Content) (h : Handle) (st : Store) :
    (call.run h st).state = st ∨
      (∀ c ∈ call.content?, ¬ c.Finds st h.slot) ∧ st.isEdited h.slot = false ∧
        ∃ base, (base = st.builder h.slot ∨ base = (st.builder h.slot).reset) ∧
          (call.run h st).state = st.put h.slot
            (call.content?.elim base fun c => (base.content c st).value) := by
  rcases run_cases call h st with ⟨_, hrun⟩ | ⟨unseen, ⟨_, hrun⟩ | ⟨he, _, hst⟩⟩
  · exact .inl (by rw [hrun])
  · exact .inl (by rw [hrun])
  · exact .inr ⟨unseen, he, hst⟩

/-- What stands in the slot behind a call stood there before, or comes with the content. -/
theorem mem_slots_elim {b base : Builder} {call : HandleCall Content}
    (hb : base = b ∨ base = b.reset) {j : SlotId}
    (hj : j ∈ (call.content?.elim base fun c => (base.content c st).value).slots) :
    j ∈ b.slots ∨ ∃ c ∈ call.content?, j ∈ c.slots := by
  have held : ∀ i ∈ base.slots, i ∈ b.slots := by
    rcases hb with rfl | rfl
    · exact fun i hi => hi
    · exact fun i hi => nomatch hi
  cases hc : call.content? with
  | none =>
    rw [hc] at hj
    exact .inl (held j hj)
  | some c =>
    rw [hc, Option.elim_some, Builder.slots_content] at hj
    rcases List.mem_append.mp hj with hj | hj
    · exact .inl (held j hj)
    · exact .inr ⟨c, rfl, hj⟩

theorem mem_slots_run {call : HandleCall Content} {j : SlotId}
    (hj : j ∈ ((call.run h st).state.builder h.slot).slots) :
    j ∈ (st.builder h.slot).slots ∨ ∃ c ∈ call.content?, j ∈ c.slots := by
  rcases state_cases call h st with hst | ⟨_, _, base, hb, hst⟩
  · rw [hst] at hj
    exact .inl hj
  · rw [hst, Store.builder_put] at hj
    split at hj
    · exact mem_slots_elim hb hj
    · exact .inl hj

/-- No call closes a cycle, unless its content reaches the slot only past one being edited. -/
theorem acyclic_run {call : HandleCall Content} (ha : st.Acyclic)
    (hc : ∀ c ∈ call.content?, c.Reaches st h.slot → c.Finds st h.slot) :
    (call.run h st).state.Acyclic := by
  rcases state_cases call h st with hst | ⟨unseen, _, base, hb, hst⟩
  · rwa [hst]
  · rw [hst]
    refine ha.put ?_
    intro j hj
    rcases mem_slots_elim hb hj with hj | ⟨c, hmem, hj⟩
    · exact ha.not_reaches_of_mem hj
    · have apart : ¬ c.Reaches st h.slot := fun hr => unseen c hmem (hc c hmem hr)
      exact ⟨fun hji => apart ⟨j, hj, .inl hji⟩, fun hr => apart ⟨j, hj, .inr hr⟩⟩

/-- Content that reaches the slot closes a cycle, unless the call is refused. -/
theorem reaches_self_run {call : HandleCall Content} (hi : h.slot < st.size)
    (hr : (call.run h st).refusal = none) {c : Content} (hc : c ∈ call.content?)
    (hreach : c.Reaches st h.slot) : (call.run h st).state.Reaches h.slot h.slot := by
  rcases run_cases call h st with ⟨_, hrun⟩ | ⟨_, ⟨_, hrun⟩ | ⟨_, _, base, _, hst⟩⟩
  · rw [hrun] at hr
    cases hr
  · rw [hrun] at hr
    cases hr
  · obtain ⟨j, hj, hji⟩ := hreach
    rw [hst, Option.mem_def.mp hc]
    refine Store.reaches_self_put hi ?_ hji
    rw [Option.elim_some, Builder.slots_content]
    exact List.mem_append_right _ hj

end HandleCall

end Hypertext
