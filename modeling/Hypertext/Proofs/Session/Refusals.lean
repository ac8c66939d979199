import Hypertext.Proofs.Rendering.Frames
import Hypertext.Proofs.Session.Cycles

/-! # Refused calls

A call that is refused has changed nothing: each of them is checked before it acts. Only a new
placeholder with content is made in two steps, a declaration and a filling; but what is there before
a slot is new does not lead to it, and nobody is editing it, so the second step is never refused. -/

namespace Hypertext

variable {b : Builder} {st : Store} {error : BuildError} {name : String}

/-! ## Calls -/

theorem HandleCall.run_of_refusal {call : HandleCall Content} {h : Handle}
    (hr : (call.run h st).refusal = some error) :
    call.run h st = { state := st, refusal := some error } := by
  rcases run_cases call h st with ⟨_, hrun⟩ | ⟨_, ⟨_, hrun⟩ | ⟨_, accepted, _⟩⟩
  · rw [hrun] at hr ⊢
    cases hr
    rfl
  · rw [hrun] at hr ⊢
    cases hr
    rfl
  · rw [accepted] at hr
    cases hr

namespace Registry

variable {r : Registry} {d : Declared} {c : Content}

theorem declare_of_contains (h : r.contains name = true) (st : Store) :
    r.declare name st = .error (.duplicateName name) := by
  rw [declare, if_pos h]

theorem isEdited_declare (hd : r.declare name st = .ok d) :
    d.store.isEdited d.handle.slot = false := by
  obtain ⟨hh, _, hst⟩ := declare_eq hd
  rw [hst, hh, Store.isEdited_allocate, if_pos rfl]

/-- A new placeholder takes all content from before. -/
theorem refusal_add_declare (hs : st.Scoped) (hd : r.declare name st = .ok d)
    (hc : c.Within st.size) : (d.handle.add c d.store).refusal = none := by
  have apart : ∀ c' ∈ (HandleCall.add c).content?, ¬ c'.Reaches d.store d.handle.slot := by
    intro c' hc'
    cases hc'
    exact not_reaches_declare hs hd hc
  exact HandleCall.refusal_run_eq_none (isEdited_declare hd) apart

end Registry

namespace Builder

variable {c : Content}

theorem placeWith_of_contains (h : b.placeholders.contains name = true) (c : Content)
    (st : Store) :
    b.placeWith name c st = { state := (b, st), refusal := some (.duplicateName name) } := by
  rw [placeWith, Registry.declare_of_contains h]

/-- A name that is new to the builder is declared, filled and placed. -/
theorem placeWith_of_new (h : b.placeholders.contains name = false) (hs : st.Scoped)
    (hc : c.Within st.size) :
    ∃ d, b.placeholders.declare name st = .ok d ∧
      b.placeWith name c st =
        { state := ({ b with placeholders := d.registry }.push (.slot d.handle),
            ((HandleCall.add c).run d.handle d.store).state)
          log := ((HandleCall.add c).run d.handle d.store).log ++
            [.placed b.name name b.fragments.size] } := by
  cases hd : b.placeholders.declare name st with
  | error e => simp [Registry.declare, h] at hd
  | ok d =>
    have filled := Registry.refusal_add_declare hs hd hc
    refine ⟨d, rfl, ?_⟩
    rw [placeWith, hd]
    simp only [filled]
    rfl

end Builder

namespace BuilderCall

/-- A call by name is refused as the call on the placeholder's handle is. -/
theorem run_byName_of_refusal {call : BuilderCall Content AttributeValue String}
    {c : HandleCall Content} (hn : call.byName? = some (name, c))
    (hr : (call.run b st).refusal = some error) :
    call.run b st = { state := (b, st), refusal := some error } := by
  have refused {h : Handle} (hr : ((c.run h st).map (b, ·)).refusal = some error) :
      (c.run h st).map (b, ·) = { state := (b, st), refusal := some error } := by
    rw [HandleCall.run_of_refusal hr]
    rfl
  cases call with
  | set _ content =>
    cases hn
    simp only [run, Builder.set] at hr ⊢
    cases hp : b.placeholder name with
    | error e =>
      simp only [hp] at hr ⊢
      cases hr
      rfl
    | ok h =>
      simp only [hp] at hr ⊢
      exact refused hr
  | clear =>
    cases hn
    simp only [run, Builder.clear] at hr ⊢
    cases hp : b.placeholder name with
    | error e =>
      simp only [hp] at hr ⊢
      cases hr
      rfl
    | ok h =>
      simp only [hp] at hr ⊢
      exact refused hr
  | _ => cases hn

theorem run_of_refusal {call : BuilderCall Content AttributeValue String} (hs : st.Scoped)
    (hc : call.Brings (Content.Within st.size)) (hr : (call.run b st).refusal = some error) :
    call.run b st = { state := (b, st), refusal := some error } := by
  cases call with
  | place name =>
    rcases b.place_cases name st with ⟨e, _, hrun⟩ | ⟨d, _, hrun⟩
    · rw [run, hrun] at hr ⊢
      cases hr
      rfl
    · rw [run, hrun] at hr
      cases hr
  | placeWith name c =>
    simp only [run] at hr ⊢
    cases known : b.placeholders.contains name with
    | true =>
      rw [Builder.placeWith_of_contains known] at hr ⊢
      cases hr
      rfl
    | false =>
      obtain ⟨d, _, hplace⟩ := Builder.placeWith_of_new known hs hc
      rw [hplace] at hr
      cases hr
  | set name c => exact run_byName_of_refusal rfl hr
  | clear name => exact run_byName_of_refusal rfl hr
  | _ => cases hr

end BuilderCall

/-! ## Sessions -/

/-- What the name is bound to, with all that this shadows. -/
def Bindings.values {α : Type} (v : Bindings α) (name : String) : List α :=
  (v.entries.filter fun e => name == e.1).map (·.2)

/-- To bind a name to what it is bound to changes nothing. -/
theorem Bindings.values_insert {α : Type} {v : Bindings α} {a : α} (h : v.find? name = some a)
    (other : String) : (v.insert name a).values other = v.values other := by
  obtain ⟨before, after, he, hb⟩ := List.lookup_eq_some_iff.mp h
  have erased : (v.erase name).entries = before ++ after := by
    rw [erase, he, List.eraseP_append_right _ fun e hm => by simpa using hb e hm]
    simp
  unfold values insert push
  rw [erased, he]
  by_cases ho : other = name
  · subst ho
    have none : before.filter (fun e => other == e.1) = [] :=
      List.filter_eq_nil_iff.mpr fun e hm => by simpa using hb e hm
    simp [none]
  · simp [ho]

theorem Store.put_builder (st : Store) (i : SlotId) : st.put i (st.builder i) = st := by
  have same : st.slots.modify i (fun s => { s with builder := st.builder i }) = st.slots := by
    apply Array.ext
    · simp
    · intro j _ hj
      rw [Array.getElem_modify]
      split
      · subst_vars
        simp [builder, slot, Array.getD, hj]
      · rfl
  rw [put, same]

namespace Session

variable {s t u : Session}

/-- The slots and the variables are the same. Only the order in which names were bound may differ,
and that is not seen. -/
structure Unchanged (s t : Session) : Prop where
  store : t.store = s.store
  builders : ∀ name, t.builders.values name = s.builders.values name
  handles : t.handles = s.handles
  registries : t.registries = s.registries

theorem unchanged_putBuilder (h : s.builder? name = some b) :
    s.Unchanged (s.putBuilder name b) := by
  obtain ⟨site, hf, rfl⟩ := Option.map_eq_some_iff.mp h
  rcases s.putBuilder_cases name (s.builderAt site) with ⟨i, hi, hput⟩ | ⟨hn, hput⟩
  · rw [hf] at hi
    cases hi
    rw [hput]
    exact ⟨Store.put_builder s.store i, fun _ => rfl, rfl, rfl⟩
  · rw [hput]
    cases site with
    | own b => exact ⟨rfl, Bindings.values_insert hf, rfl, rfl⟩
    | slot i => exact absurd hf (hn i)

/-- **Errors are atomic.** A call that is refused leaves its builder, all slots and all variables as
they were when it was made, and it logs nothing; so does a look for an unknown placeholder. A new
placeholder with content is refused only for a name that the builder has filed. Otherwise it is
there, filed and placed: its slot takes every content. The searches on the way leave no slot
marked. -/
theorem refusals_change_nothing (hs : s.Reachable) :
    (∀ {name : String} {e : BuilderCall ContentExpr ValueExpr TextExpr}
      {call : BuilderCall Content AttributeValue String} {u : Session} {b : Builder}
      {error : BuildError}, (Eval.builderCall e).Returns s call u → u.builder? name = some b →
      (call.run b u.store).refusal = some error →
        call.run b u.store = { state := (b, u.store), log := [], refusal := some error } ∧
        u.Unchanged (s.perform (.call name e)).session) ∧
    (∀ {name : String} {e : HandleCall ContentExpr} {call : HandleCall Content} {u : Session}
      {h : Handle} {error : BuildError}, (Eval.handleCall e).Returns s call u →
      u.handles.find? name = some h → (call.run h u.store).refusal = some error →
        call.run h u.store = { state := u.store, log := [], refusal := some error } ∧
        (s.perform (.handleCall name e)).session = u) ∧
    (∀ {name placeholder target : String} {error : BuildError} {t : Session},
      (Eval.step (.placeholder name placeholder target)).Returns s (.refused error) t → t = s) ∧
    (∀ {name placeholder : String} {e : BuilderCall ContentExpr ValueExpr TextExpr} {c : Content}
      {u : Session} {b : Builder}, (Eval.builderCall e).Returns s (.placeWith placeholder c) u →
      u.builder? name = some b →
        (b.placeholders.contains placeholder = true ∧
          (b.placeWith placeholder c u.store).refusal = some (.duplicateName placeholder)) ∨
        (b.placeholders.contains placeholder = false ∧
          (b.placeWith placeholder c u.store).refusal = none ∧
          ∃ h : Handle, h.name = placeholder ∧ h.slot = u.store.size ∧
            (b.placeWith placeholder c u.store).state.1 =
              { b with placeholders := b.placeholders.insert placeholder h }.push (.slot h))) ∧
    ∀ (st : Store) (target : SlotId), (∀ h, (st.searchHandle h target).marks = []) ∧
      ∀ b, (st.searchBuilder b target).marks = [] := by
  refine ⟨?_, ?_, ?_, ?_, ?_⟩
  · intro name e call u b error he hb hr
    obtain ⟨hu, _, within⟩ := hs.sound.builderCall he
    have hrun := BuilderCall.run_of_refusal hu.store within hr
    refine ⟨hrun, ?_⟩
    rw [session_perform_call he hb, callBuilder, hrun]
    exact unchanged_putBuilder hb
  · intro name e call u h error he hh hr
    have hrun := HandleCall.run_of_refusal hr
    refine ⟨hrun, ?_⟩
    rw [session_perform_handleCall he hh, callHandle, hrun]
    rfl
  · intro name placeholder target error t h
    simp only [Eval.step, Eval.returns_bind, Eval.returns_builder] at h
    obtain ⟨b, _, ⟨_, rfl⟩, h⟩ := h
    split at h
    · exact (Eval.returns_pure.mp h).2
    · obtain ⟨_, _, _, h⟩ := Eval.returns_bind.mp h
      cases (Eval.returns_pure.mp h).1
  · intro name placeholder e c u b he hb
    obtain ⟨hu, _, within⟩ := hs.sound.builderCall he
    cases known : b.placeholders.contains placeholder with
    | true =>
      left
      exact ⟨rfl, by rw [Builder.placeWith_of_contains known]⟩
    | false =>
      right
      obtain ⟨d, hd, hplace⟩ := Builder.placeWith_of_new known hu.store within
      obtain ⟨hh, hr, _⟩ := Registry.declare_eq hd
      rw [hplace]
      exact ⟨rfl, rfl, d.handle, by rw [hh], by rw [hh], by rw [hr]⟩
  · intro st target
    have hm := Store.marks_searchSlot st target st.depthBound
    exact ⟨fun h => hm h [], fun b => Store.marks_searchFragments hm _ []⟩

/-- A placeholder of a builder, while it is being edited. -/
def editedPlaceholder : List Action :=
  [.perform (.create "b" none),
    .perform (.call "b" (.place "A")),
    .perform (.placeholder "b" "A" "a"),
    .beginEdit "a" "x"]

theorem refusals_change_nothing_edited :
    (run {} editedPlaceholder).Reachable ∧
    ((run {} editedPlaceholder).Unchanged
      ((run {} editedPlaceholder).perform (.call "b" (.placeWith "A" (.handle "a")))).session) ∧
    ((run {} editedPlaceholder).perform (.handleCall "a" (.set .empty))).session =
      run {} editedPlaceholder ∧
    (∃ t, (Eval.step (.placeholder "b" "C" "c")).Returns (run {} editedPlaceholder)
      (.refused (.unknownPlaceholder "C")) t ∧ t = run {} editedPlaceholder) ∧
    ∃ b h, (run {} editedPlaceholder).builder? "x" = some b ∧ h.slot = 0 ∧
      (b.placeWith "B" (.slot h) (run {} editedPlaceholder).store).refusal = none := by
  have reached := Reachable.start.run editedPlaceholder
  have handle : (run {} editedPlaceholder).handles.find? "a" = some ⟨"A", 0, true⟩ := by
    decide +kernel
  have host : (run {} editedPlaceholder).builder? "b" = some
      { name := "E Builder"
        fragments := #[.slot ⟨"A", 0, true⟩]
        placeholders := { entries := [("A", ⟨"A", 0, true⟩)] } } := by
    decide +kernel
  have slot : (run {} editedPlaceholder).builder? "x" = some { name := "A" } := by
    decide +kernel
  have content : (Eval.content (.handle "a")).Returns (run {} editedPlaceholder)
      (.slot ⟨"A", 0, true⟩) (run {} editedPlaceholder) := by
    simp [Eval.content, handle]
  have filling (name : String) : (Eval.builderCall (.placeWith name (.handle "a"))).Returns
      (run {} editedPlaceholder) (.placeWith name (.slot ⟨"A", 0, true⟩))
      (run {} editedPlaceholder) :=
    Eval.returns_map.mpr ⟨_, content, rfl⟩
  have setting : (Eval.handleCall (.set .empty)).Returns (run {} editedPlaceholder) (.set .empty)
      (run {} editedPlaceholder) := by
    simp [Eval.handleCall, Eval.content]
  have unknown : (Eval.step (.placeholder "b" "C" "c")).Returns (run {} editedPlaceholder)
      (.refused (.unknownPlaceholder "C")) (run {} editedPlaceholder) := by
    simp only [Eval.step, Eval.returns_bind, Eval.returns_builder]
    exact ⟨_, _, ⟨host, rfl⟩, Eval.returns_pure.mpr ⟨rfl, rfl⟩⟩
  obtain ⟨builders, handles, lookups, placing, _⟩ := refusals_change_nothing reached
  have duplicate := builders (filling "A") host
    (show _ = some (.duplicateName "A") by decide +kernel)
  have busy := handles setting handle (show _ = some (.slotBusy "A") by decide +kernel)
  refine ⟨reached, duplicate.2, busy.2, ⟨_, unknown, lookups unknown⟩, _, ⟨"A", 0, true⟩, slot, rfl,
    ?_⟩
  rcases placing (filling "B") slot with ⟨known, _⟩ | ⟨_, taken, _⟩
  · cases known
  · exact taken

end Session

end Hypertext
