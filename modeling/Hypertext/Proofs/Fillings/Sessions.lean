import Hypertext.Proofs.Fillings.Calls
import Hypertext.Proofs.Rendering.Repeats
import Hypertext.Proofs.Session.Edits

/-! # What slots hold in a session

Handles and builders share slots, so what a slot holds is told along a whole run. -/

namespace Hypertext

open Filling (held ofSlot)

namespace Session

variable {s t u : Session} {i : SlotId} {past : List Filling} {name : String}

/-- What an action does to slots. To end an edit does nothing more to the builder. -/
def fillings (s : Session) : Action → List (SlotId × Filling)
  | .perform (.call name e) =>
    match (Eval.builderCall e).result s with
    | some (call, u) => (u.builder? name).elim [] fun b => call.fillings b u.store
    | none => []
  | .perform (.handleCall name e) =>
    match (Eval.handleCall e).result s with
    | some (call, u) => (u.handles.find? name).elim [] fun h => call.fillings h u.store
    | none => []
  | .perform (.registry name (.declare placeholder _)) =>
    (s.registries.find? name).elim [] fun r => r.fillings placeholder s.store
  | .perform (.share name _) =>
    match s.builders.find? name with
    | some (.own _) => [(s.store.size, .built)]
    | _ => []
  | .beginEdit name _ => (s.handles.find? name).elim [] fun h => [(h.slot, .built)]
  | _ => []

/-- All that happens to the slot `i` in a run. -/
def history (s : Session) (i : SlotId) : List Action → List Filling
  | [] => []
  | a :: as => ofSlot i (s.fillings a) ++ (s.act a).history i as

/-! ## Steps -/

theorem follows_nil (h : s.store.Follows i past) : s.store.Follows i (past ++ ofSlot i []) := by
  rwa [Filling.ofSlot_nil, List.append_nil]

/-- A variable has a builder of its own, or it stands for one that is being edited. -/
theorem Sound.follows_putBuilder (hs : s.Sound) (hf : s.store.Follows i past) (name : String)
    (b : Builder) : (s.putBuilder name b).store.Follows i past := by
  rcases s.putBuilder_cases name b with ⟨j, hj, hput⟩ | ⟨_, hput⟩
  · have edited := hs.edited j (mem_sites_of_find? hj)
    rw [hput]
    refine hf.unchanged (by simp) (by simp) ?_
    intro unedited
    have apart : i ≠ j := by
      rintro rfl
      rw [edited] at unedited
      cases unedited
    rw [Store.isEdited_put, Store.builder_put_of_ne _ apart]
    exact ⟨unedited, rfl⟩
  · rw [hput]
    exact hf

theorem Sound.follows_call (hs : s.Sound) (hf : s.store.Follows i past) (name : String)
    (e : BuilderCall ContentExpr ValueExpr TextExpr) :
    (s.perform (.call name e)).session.store.Follows i
      (past ++ ofSlot i (s.fillings (.perform (.call name e)))) := by
  cases evaluated : (Eval.builderCall e).result s with
  | none =>
    rw [session_perform_call_of_fails evaluated, fillings, evaluated]
    exact follows_nil hf
  | some r =>
    obtain ⟨call, u⟩ := r
    obtain ⟨hu, same, within⟩ := hs.builderCall evaluated
    cases hb : u.builder? name with
    | none =>
      simp only [session_perform_call_of_unknown evaluated hb, fillings, evaluated, hb]
      exact follows_nil hf
    | some b =>
      have known := hu.builder? hb
      have called := call.follows_run (same ▸ hf) known
      have sound := hu.withStore (call.respects_run b u.store)
        (BuilderCall.scoped_run known hu.store within).2
      simp only [session_perform_call evaluated hb, fillings, evaluated, hb]
      exact sound.follows_putBuilder called name _

theorem Sound.follows_handleCall (hs : s.Sound) (hf : s.store.Follows i past) (name : String)
    (e : HandleCall ContentExpr) :
    (s.perform (.handleCall name e)).session.store.Follows i
      (past ++ ofSlot i (s.fillings (.perform (.handleCall name e)))) := by
  cases evaluated : (Eval.handleCall e).result s with
  | none =>
    rw [session_perform_handleCall_of_fails evaluated, fillings, evaluated]
    exact follows_nil hf
  | some r =>
    obtain ⟨call, u⟩ := r
    obtain ⟨hu, same, _⟩ := hs.handleCall evaluated
    cases hh : u.handles.find? name with
    | none =>
      simp only [session_perform_handleCall_of_unknown evaluated hh, fillings, evaluated, hh]
      exact follows_nil hf
    | some h =>
      simp only [session_perform_handleCall evaluated hh, fillings, evaluated, hh]
      exact call.follows_run (same ▸ hf) (hu.handle hh)

theorem store_perform_declare {r : Registry} {placeholder : String} {d : Declared}
    (hr : s.registries.find? name = some r) (hd : r.declare placeholder s.store = .ok d)
    (target : Option String) :
    (s.perform (.registry name (.declare placeholder target))).session.store = d.store := by
  rw [session_perform_eq, Eval.step, Eval.registryStep]
  cases target <;>
    simp [Eval.result_bind, Eval.result_map, Eval.registry, Eval.result_ofOption, hr, hd,
      bindRegistry, bindHandle]

theorem follows_declare (hf : s.store.Follows i past) (name placeholder : String)
    (target : Option String) :
    (s.perform (.registry name (.declare placeholder target))).session.store.Follows i
      (past ++ ofSlot i (s.fillings (.perform (.registry name (.declare placeholder target))))) := by
  cases hr : s.registries.find? name with
  | none =>
    have skipped : (Eval.step (.registry name (.declare placeholder target))).result s = none := by
      simp [Eval.step, Eval.registryStep, Eval.result_bind, Eval.registry, Eval.result_ofOption, hr]
    simp only [session_perform_of_fails skipped, fillings, hr]
    exact follows_nil hf
  | some r =>
    simp only [fillings, hr, Option.elim_some, Registry.fillings]
    cases hd : r.declare placeholder s.store with
    | ok d =>
      rw [store_perform_declare hr hd]
      exact hf.declare hd
    | error e =>
      have change := s.change_perform (.registry name (.declare placeholder target))
      generalize (s.perform (.registry name (.declare placeholder target))).session = t at change ⊢
      cases change with
      | declare hr' hd' =>
        rw [hr] at hr'
        cases hr'
        rw [hd] at hd'
        cases hd'
      | bind hst =>
        rw [hst]
        exact follows_nil hf

/-- Whatever becomes of the slot, nothing more is said of it. -/
theorem follows_built {st : Store} (j : SlotId) (hf : j ≠ i → st.Follows i past) :
    st.Follows i (past ++ ofSlot i [(j, .built)]) := by
  by_cases hj : j = i
  · rw [hj, Filling.ofSlot_self]
    exact .built st i past
  · rw [Filling.ofSlot_of_ne hj, List.append_nil]
    exact hf hj

theorem follows_share (hf : s.store.Follows i past) (name target : String) :
    (s.perform (.share name target)).session.store.Follows i
      (past ++ ofSlot i (s.fillings (.perform (.share name target)))) := by
  have change := s.change_perform (.share name target)
  generalize (s.perform (.share name target)).session = t at change ⊢
  cases change with
  | share hb =>
    simp only [fillings, hb]
    refine follows_built _ fun hi => ?_
    exact hf.allocate _ (Ne.symm hi)
  | bind hst =>
    rw [hst]
    simp only [fillings]
    split
    · exact follows_built _ fun _ => hf
    · exact follows_nil hf

theorem follows_beginEdit (hf : s.store.Follows i past) (name target : String) :
    (s.act (.beginEdit name target)).store.Follows i
      (past ++ ofSlot i (s.fillings (.beginEdit name target))) := by
  cases hh : s.handles.find? name with
  | none =>
    simp only [act, fillings, hh]
    exact follows_nil hf
  | some h =>
    simp only [act, fillings, hh, Option.elim_some]
    refine follows_built h.slot fun hi => ?_
    split
    · exact hf
    · refine hf.unchanged (by simp [beginEdit]) (by simp [beginEdit]) ?_
      intro unedited
      rw [beginEdit, Store.isEdited_setEditing, Store.builder_setEditing,
        if_neg fun both => hi both.1.symm]
      exact ⟨unedited, rfl⟩

theorem follows_endEdit (hf : s.store.Follows i past) (j : SlotId) :
    (s.endEdit j).store.Follows i past := by
  refine hf.unchanged (by simp [endEdit]) (by simp [endEdit]) ?_
  intro unedited
  rw [endEdit, Store.isEdited_setEditing, Store.builder_setEditing]
  refine ⟨?_, rfl⟩
  split
  · rfl
  · exact unedited

/-- What an action does to slots is all that happens to them. -/
theorem Sound.follows_act (hs : s.Sound) (hf : s.store.Follows i past) (a : Action) :
    (s.act a).store.Follows i (past ++ ofSlot i (s.fillings a)) := by
  have bound {step : Step} (h : (s.perform step).session.store = s.store) :
      (s.perform step).session.store.Follows i (past ++ ofSlot i []) := by
    rw [h]
    exact follows_nil hf
  cases a with
  | perform step =>
    have change := s.change_perform step
    cases step with
    | call name e => exact hs.follows_call hf name e
    | handleCall name e => exact hs.follows_handleCall hf name e
    | share name target => exact follows_share hf name target
    | registry name step =>
      cases step with
      | declare placeholder target => exact follows_declare hf name placeholder target
      | _ =>
        cases change with
        | bind hst => exact bound hst
    | create name given =>
      cases change with
      | create => exact follows_nil (hs.follows_putBuilder hf name _)
      | bind hst => exact bound hst
    | newDocument name config settings =>
      rw [Session.act, session_perform_newDocument]
      cases s.document? config settings with
      | none => exact follows_nil hf
      | some doc => exact follows_nil (hs.follows_putBuilder hf name doc)
    | _ =>
      cases change with
      | bind hst => exact bound hst
  | leaveScope name =>
    refine follows_nil ?_
    simp only [Session.act, Session.leaveScope]
    split
    · exact hs.follows_putBuilder hf name _
    · exact hf
  | beginEdit name target => exact follows_beginEdit hf name target
  | endEdit j => exact follows_nil (follows_endEdit hf j)

/-- The history of a run is all that happens to the slot. -/
theorem Sound.follows_run (hs : s.Sound) (hf : s.store.Follows i past) (as : List Action) :
    (s.run as).store.Follows i (past ++ s.history i as) := by
  induction as generalizing s past with
  | nil => rwa [history, List.append_nil]
  | cons a as ih =>
    have step := ih (hs.act a) (hs.follows_act hf a)
    rwa [List.append_assoc] at step

/-- At first there is no slot, and nothing has happened. -/
theorem follows_start (i : SlotId) : ({} : Session).store.Follows i [] where
  holds _ hcs := nomatch hcs
  known lt := nomatch lt

/-- **Slots hold contents.** In whatever way a session has run, a slot of which it is known what it
holds has no open element, and unless it contains itself, each of its handles is rendered as the
contents are that it took since it was set, cleared or declared, one behind the other: each of them
as it is rendered now, and as it is rendered outside of all elements. It is known of every slot that
was changed through handles and placeholders only; of a slot that was shared or edited, it is known
again when it has been set or cleared. -/
theorem slots_hold_contents (as : List Action) (i : SlotId) :
    (∀ cs, held (history {} i as) = some cs →
      i < (run {} as).store.size ∧ ((run {} as).store.builder i).pending = none ∧
      ((run {} as).store.builder i).depth = 0 ∧
      (¬ (run {} as).store.Reaches i i → ∀ h : Handle, h.slot = i →
        h.render (run {} as).store = Content.renderAll cs (run {} as).store)) ∧
    (i < (run {} as).store.size → .built ∉ history {} i as →
      ∃ cs, held (history {} i as) = some cs) := by
  have follows := Sound.start.follows_run (follows_start i) as
  rw [List.nil_append] at follows
  refine ⟨?_, follows.known⟩
  intro cs hcs
  obtain ⟨lt, unedited, stocked⟩ := follows.holds cs hcs
  refine ⟨lt, stocked.pending, stocked.depth, ?_⟩
  rintro apart h rfl
  rw [Handle.render_of_not_finds unedited fun finds => apart finds.reaches, stocked.render]

/-- Slot A is set twice, the second time to a copy of an element that is left open, and gets slot B
and a rule behind it. To put A into B is refused, and B is set when A has it already. -/
def fillSlots : List Action :=
  [.perform (.registry "r" .create),
    .perform (.registry "r" (.declare "A" (some "a"))),
    .perform (.registry "r" (.declare "B" (some "b"))),
    .perform (.create "em" none),
    .perform (.call "em" (.tag "em")),
    .perform (.call "em" (.append (.text (.literal "x<")))),
    .perform (.handleCall "a" (.set (.text (.literal "old")))),
    .perform (.handleCall "a" (.set (.copy "em"))),
    .perform (.handleCall "a" (.add (.handle "b"))),
    .perform (.handleCall "b" (.set (.handle "a"))),
    .perform (.handleCall "a" (.add (.markup (.literal "<hr>")))),
    .perform (.handleCall "b" (.set (.text (.literal "1<2"))))]

/-- What A holds then. -/
def filledSlot : List Content :=
  [.snippet
      { name := "E Builder"
        fragments := #[.piece (.startTag { name := "em" }), .piece (.text "x&lt;"),
          .piece (.endTag "em")] },
    .slot ⟨"B", 1, true⟩, .markup "<hr>"]

theorem slots_hold_contents_filled :
    .built ∉ history {} 0 fillSlots ∧ held (history {} 0 fillSlots) = some filledSlot ∧
    ¬ (run {} fillSlots).store.Reaches 0 0 ∧ ((run {} fillSlots).store.builder 0).depth = 0 ∧
    (Handle.render ⟨"A", 0, true⟩ (run {} fillSlots).store).value =
      "<em>x&lt;</em>1&lt;2<hr>" := by
  have known : held (history {} 0 fillSlots) = some filledSlot := by decide +kernel
  have unbuilt : .built ∉ history {} 0 fillSlots := by
    have others : ((history {} 0 fillSlots).map fun f => f matches .built) =
        [false, false, false, false, false] := by
      decide +kernel
    intro built
    have among : true ∈ [false, false, false, false, false] := others ▸ List.mem_map_of_mem built
    simp at among
  have outer : ((run {} fillSlots).store.builder 0).slots = [1] := by decide +kernel
  have inner : ((run {} fillSlots).store.builder 1).slots = [] := by decide +kernel
  have apart : ¬ (run {} fillSlots).store.Reaches 0 0 := by
    intro around
    obtain ⟨j, hj, back⟩ := Store.reaches_iff.mp around
    rw [outer, List.mem_singleton] at hj
    subst hj
    rcases back with same | back
    · cases same
    · obtain ⟨k, hk, _⟩ := Store.reaches_iff.mp back
      rw [inner] at hk
      cases hk
  obtain ⟨_, _, depth, rendered⟩ := (slots_hold_contents fillSlots 0).1 filledSlot known
  refine ⟨unbuilt, known, apart, depth, ?_⟩
  rw [rendered apart ⟨"A", 0, true⟩ rfl]
  decide +kernel

end Session

end Hypertext
