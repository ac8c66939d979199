import Hypertext.Proofs.Fillings.Contents
import Hypertext.Proofs.Session.Refusals

/-! # What fills a slot

What a slot holds is told by what happened to it: that it was declared, and the calls that were not
refused. Only where its builder was reached directly is nothing known of it, up to the next call that
empties it. -/

namespace Hypertext

inductive Filling where
  /-- The slot is new, for a placeholder. -/
  | declared
  /-- A call on the slot was not refused. -/
  | accepted (call : HandleCall Content)
  /-- The slot's builder was made elsewhere, or it begins to be edited. -/
  | built

namespace Filling

/-- What the slot holds afterwards, if that is known. -/
def after : Option (List Content) → Filling → Option (List Content)
  | _, declared => some []
  | held, accepted (.add c) => held.map (· ++ [c])
  | _, accepted (.set c) => some [c]
  | _, accepted .clear => some []
  | _, built => none

/-- What the slot holds behind all that happened to it: the contents that were accepted since it was
set, cleared or declared. -/
def held (past : List Filling) : Option (List Content) :=
  past.foldl after none

@[simp] theorem held_append (past more : List Filling) :
    held (past ++ more) = more.foldl after (held past) :=
  List.foldl_append

/-- Of what happened to slots, what happened to the slot `i`. -/
def ofSlot (i : SlotId) (es : List (SlotId × Filling)) : List Filling :=
  es.filterMap fun e => if e.1 = i then some e.2 else none

@[simp] theorem ofSlot_nil (i : SlotId) : ofSlot i [] = [] := rfl

theorem ofSlot_cons (i : SlotId) (e : SlotId × Filling) (es : List (SlotId × Filling)) :
    ofSlot i (e :: es) = ofSlot i [e] ++ ofSlot i es := by
  rw [ofSlot, ofSlot, ofSlot, ← List.filterMap_append, List.singleton_append]

theorem ofSlot_self (i : SlotId) (f : Filling) : ofSlot i [(i, f)] = [f] := by
  simp [ofSlot]

theorem ofSlot_of_ne {i j : SlotId} (h : j ≠ i) (f : Filling) : ofSlot i [(j, f)] = [] := by
  simp [ofSlot, h]

end Filling

open Filling (held ofSlot)

/-! ## What calls do -/

/-- What a call on a handle does to its slot. -/
def HandleCall.fillings (call : HandleCall Content) (h : Handle) (st : Store) :
    List (SlotId × Filling) :=
  match (call.run h st).refusal with
  | none => [(h.slot, .accepted call)]
  | some _ => []

/-- What the declaration of a placeholder does to slots. -/
def Registry.fillings (r : Registry) (name : String) (st : Store) : List (SlotId × Filling) :=
  match r.declare name st with
  | .ok d => [(d.handle.slot, .declared)]
  | .error _ => []

/-- What a call on a builder does to slots. -/
def BuilderCall.fillings (b : Builder) (st : Store) :
    BuilderCall Content AttributeValue String → List (SlotId × Filling)
  | .place name => b.placeholders.fillings name st
  | .placeWith name c =>
    match b.placeholders.declare name st with
    | .ok d => (d.handle.slot, .declared) :: (HandleCall.add c).fillings d.handle d.store
    | .error _ => []
  | .set name c =>
    match b.placeholder name with
    | .ok h => (HandleCall.set c).fillings h st
    | .error _ => []
  | .clear name =>
    match b.placeholder name with
    | .ok h => HandleCall.clear.fillings h st
    | .error _ => []
  | _ => []

/-- What is known of the slot is so, and all of it is known unless its builder was reached
directly. -/
structure Store.Follows (st : Store) (i : SlotId) (past : List Filling) : Prop where
  holds : ∀ cs ∈ held past, i < st.size ∧ st.isEdited i = false ∧ (st.builder i).Stocked cs
  known : i < st.size → .built ∉ past → ∃ cs, held past = some cs

namespace Store.Follows

variable {st st' : Store} {i : SlotId} {past : List Filling}

theorem unchanged (h : st.Follows i past) (size : st.size ≤ st'.size)
    (bound : i < st'.size → i < st.size)
    (same : st.isEdited i = false → st'.isEdited i = false ∧ st'.builder i = st.builder i) :
    st'.Follows i past where
  holds cs hcs := by
    obtain ⟨lt, unedited, stocked⟩ := h.holds cs hcs
    obtain ⟨unedited', same⟩ := same unedited
    exact ⟨Nat.lt_of_lt_of_le lt size, unedited', same ▸ stocked⟩
  known lt := h.known (bound lt)

/-- Of a slot whose builder was reached directly, nothing is said. -/
theorem built (st : Store) (i : SlotId) (past : List Filling) : st.Follows i (past ++ [.built]) where
  holds cs hcs := by
    rw [Filling.held_append] at hcs
    cases hcs
  known _ unbuilt := absurd (List.mem_append_right past List.mem_cons_self) unbuilt

/-- A new slot is none of those before it. -/
theorem allocate (h : st.Follows i past) (b : Builder) (hi : i ≠ st.size) :
    (st.allocate b).Follows i past := by
  refine h.unchanged (by simp) ?_ ?_
  · intro lt
    rw [size_allocate] at lt
    exact Nat.lt_of_le_of_ne (Nat.le_of_lt_succ lt) hi
  · intro unedited
    rw [isEdited_allocate, if_neg hi, builder_allocate, if_neg hi]
    exact ⟨unedited, rfl⟩

theorem declare {r : Registry} {name : String} {d : Declared} (h : st.Follows i past)
    (hd : r.declare name st = .ok d) :
    d.store.Follows i (past ++ ofSlot i [(d.handle.slot, .declared)]) := by
  obtain ⟨hh, _, hst⟩ := Registry.declare_eq hd
  have new : d.handle.slot = st.size := by rw [hh]
  by_cases hi : st.size = i
  · subst hi
    have empty : held (past ++ [.declared]) = some [] := Filling.held_append past [.declared]
    rw [new, Filling.ofSlot_self, hst]
    refine ⟨?_, fun _ _ => ⟨[], empty⟩⟩
    intro cs hcs
    rw [empty] at hcs
    cases hcs
    rw [size_allocate, isEdited_allocate, if_pos rfl, builder_allocate, if_pos rfl]
    exact ⟨Nat.lt_succ_self _, rfl, .new name⟩
  · rw [new, Filling.ofSlot_of_ne hi, List.append_nil, hst]
    exact h.allocate _ (Ne.symm hi)

end Store.Follows

namespace HandleCall

variable {st : Store} {h : Handle} {call : HandleCall Content} {i : SlotId} {past : List Filling}

/-- An accepted call leaves in the slot what is known of it afterwards. -/
theorem run_of_accepted (hr : (call.run h st).refusal = none) :
    st.isEdited h.slot = false ∧ ∃ filled, (call.run h st).state = st.put h.slot filled ∧
      ∀ was : Option (List Content), (∀ cs ∈ was, (st.builder h.slot).Stocked cs) →
        ∀ cs ∈ Filling.after was (.accepted call), filled.Stocked cs := by
  have emptied : (st.builder h.slot).reset.Stocked [] := .new _
  have unedited : st.isEdited h.slot = false := by
    rcases run_cases call h st with ⟨_, hrun⟩ | ⟨_, ⟨_, hrun⟩ | ⟨unedited, _⟩⟩
    · rw [hrun] at hr
      cases hr
    · rw [hrun] at hr
      cases hr
    · exact unedited
  refine ⟨unedited, ?_⟩
  cases call with
  | set c =>
    rw [run, Handle.set] at hr ⊢
    cases refused : h.refusal? c st with
    | some e =>
      rw [refused] at hr
      cases hr
    | none =>
      refine ⟨_, rfl, ?_⟩
      rintro was _ _ ⟨⟩
      exact emptied.content c st
  | add c =>
    rw [run, Handle.add] at hr ⊢
    cases refused : h.refusal? c st with
    | some e =>
      rw [refused] at hr
      cases hr
    | none =>
      refine ⟨_, rfl, ?_⟩
      intro was stocked cs hcs
      obtain ⟨before, hbefore, rfl⟩ := Option.map_eq_some_iff.mp hcs
      exact (stocked before hbefore).content c st
  | clear =>
    rw [run, Handle.clear, if_neg (by simp [unedited])]
    refine ⟨_, rfl, ?_⟩
    rintro was _ _ ⟨⟩
    exact emptied

theorem follows_run (hf : st.Follows i past) (hh : h.slot < st.size)
    (call : HandleCall Content) :
    (call.run h st).state.Follows i (past ++ ofSlot i (call.fillings h st)) := by
  unfold fillings
  cases hr : (call.run h st).refusal with
  | some e =>
    rw [run_of_refusal hr, Filling.ofSlot_nil, List.append_nil]
    exact hf
  | none =>
    obtain ⟨unedited, filled, hst, stocked⟩ := run_of_accepted hr
    rw [hst]
    by_cases hi : h.slot = i
    · subst hi
      rw [Filling.ofSlot_self]
      have now : held (past ++ [.accepted call]) = Filling.after (held past) (.accepted call) :=
        Filling.held_append past [.accepted call]
      refine ⟨?_, ?_⟩
      · intro cs hcs
        rw [now] at hcs
        rw [Store.size_put, Store.isEdited_put, Store.builder_put_self hh]
        exact ⟨hh, unedited, stocked _ (fun cs hcs => (hf.holds cs hcs).2.2) cs hcs⟩
      · intro _ unbuilt
        have unbuilt' : .built ∉ past := fun hm => unbuilt (List.mem_append_left _ hm)
        obtain ⟨cs, was⟩ := hf.known hh unbuilt'
        rw [now, was]
        cases call <;> exact ⟨_, rfl⟩
    · rw [Filling.ofSlot_of_ne hi, List.append_nil]
      refine hf.unchanged (by simp) (by simp) ?_
      intro unedited
      rw [Store.isEdited_put, Store.builder_put_of_ne st (Ne.symm hi)]
      exact ⟨unedited, rfl⟩

end HandleCall

namespace BuilderCall

variable {b : Builder} {st : Store} {i : SlotId} {past : List Filling}

/-- What a call on a builder does to slots is all that happens to them. -/
theorem follows_run (hf : st.Follows i past) (hb : b.Within st.size)
    (call : BuilderCall Content AttributeValue String) :
    (call.run b st).state.2.Follows i (past ++ ofSlot i (call.fillings b st)) := by
  have untouched : st.Follows i (past ++ ofSlot i []) := by
    rwa [Filling.ofSlot_nil, List.append_nil]
  have filled {name : String} {h : Handle} (hp : b.placeholder name = .ok h)
      (call : HandleCall Content) :=
    call.follows_run hf (hb.placeholders h (Builder.mem_handles_of_placeholder hp))
  cases call with
  | place name =>
    simp only [run, fillings, Builder.place, Registry.fillings]
    cases hd : b.placeholders.declare name st with
    | error e => exact untouched
    | ok d => exact hf.declare hd
  | placeWith name c =>
    rcases b.placeWith_cases name c st with ⟨e, hd, hrun⟩ | ⟨d, hd, hst, _⟩
    · simp only [run, fillings, hrun, hd]
      exact untouched
    · have declared := hf.declare hd
      simp only [run, fillings, hst, hd]
      rw [Filling.ofSlot_cons, ← List.append_assoc]
      exact (HandleCall.add c).follows_run declared (Registry.slot_declare hd)
  | set name c =>
    simp only [run, fillings, Builder.set]
    cases hp : b.placeholder name with
    | error e => exact untouched
    | ok h => exact filled hp (.set c)
  | clear name =>
    simp only [run, fillings, Builder.clear]
    cases hp : b.placeholder name with
    | error e => exact untouched
    | ok h => exact filled hp .clear
  | _ => exact untouched

end BuilderCall

end Hypertext
