import Hypertext.Proofs.Session.Sound

/-! # Edits

While a slot is being edited, a variable stands for its builder. The builder changes by the
operations on this variable, and by nothing else. -/

namespace Hypertext

/-- An operation on the builder of a variable. -/
structure Operation where
  /-- The slot that is edited through the variable, unless it has a builder of its own. -/
  slot : Option SlotId
  change : Builder → Builder

/-- The step puts a builder to a variable. -/
def Step.Puts : Step → Prop
  | .create .. | .newDocument .. | .call .. => True
  | _ => False

namespace Session

variable {s t u : Session} {name : String} {i : SlotId}

/-- The slot that is edited through the variable. -/
def slotOf (s : Session) (name : String) : Option SlotId :=
  (s.builders.find? name).bind Site.slot?

theorem slotOf_eq_some_iff : s.slotOf name = some i ↔ s.builders.find? name = some (.slot i) := by
  unfold slotOf
  cases s.builders.find? name with
  | none => simp
  | some site => cases site <;> simp [Site.slot?]

theorem builder?_of_slotOf (h : s.slotOf name = some i) :
    s.builder? name = some (s.store.builder i) := by
  rw [builder?, slotOf_eq_some_iff.mp h]
  rfl

/-- The document that is to be made, unless it is refused or cannot be evaluated. -/
def document? (s : Session) (loaded : Except ConfigError DocumentConfig)
    (settings : List (Setting ValueExpr)) : Option Builder := do
  let (settings, _) ← (settings.mapM Eval.setting).result s
  let config ← loaded.toOption
  let doc ← (document (settings.foldl DocumentConfig.apply config)).toOption
  return doc.value

/-- The operation on a variable's builder that the action is. -/
def operation? (s : Session) : Action → Option Operation
  | .perform (.create name given) =>
    some ⟨s.slotOf name, fun _ => { name := given.getD "E Builder" }⟩
  | .perform (.newDocument name config settings) =>
    (s.document? config settings).map fun doc => ⟨s.slotOf name, fun _ => doc⟩
  | .perform (.call name e) =>
    ((Eval.builderCall e).result s).map fun (call, u) =>
      ⟨u.slotOf name, fun b => (call.run b u.store).state.1⟩
  | .leaveScope name => some ⟨s.slotOf name, Builder.leaveScope⟩
  | _ => none

/-- What the action makes of the builder of a slot that is being edited. -/
def edit (s : Session) (i : SlotId) (a : Action) (b : Builder) : Builder :=
  match s.operation? a with
  | some op => if op.slot = some i then op.change b else b
  | none => b

/-- What a run makes of the builder of a slot that is being edited. -/
def edits (s : Session) (i : SlotId) : List Action → Builder → Builder
  | [], b => b
  | a :: as, b => (s.act a).edits i as (s.edit i a b)

/-! ## What is being edited -/

@[simp] theorem isEdited_putBuilder (s : Session) (name : String) (b : Builder) (i : SlotId) :
    (s.putBuilder name b).store.isEdited i = s.store.isEdited i := by
  rcases s.putBuilder_cases name b with ⟨j, _, hput⟩ | ⟨_, hput⟩
  · rw [hput, Store.isEdited_put]
  · rw [hput]

theorem isEdited_leaveScope (s : Session) (name : String) (i : SlotId) :
    (s.leaveScope name).store.isEdited i = s.store.isEdited i := by
  unfold leaveScope
  split
  · exact isEdited_putBuilder _ _ _ _
  · rfl

/-- Only a step that puts a builder to a variable changes what is being edited. -/
theorem Change.respects {step : Step} (h : s.Change step t) (hp : ¬ step.Puts) :
    s.store.Respects t.store := by
  cases h with
  | create | document | call => exact (hp trivial).elim
  | share hb => exact .allocate s.store _
  | @handleCall name e call u handle he hh =>
    rw [← (Eval.supplies_handleCall he).2.store]
    exact call.respects_run handle u.store
  | declare hr hd hst _ _ =>
    rw [hst]
    exact Registry.respects_declare hd
  | bind hst _ _ =>
    rw [hst]
    exact .refl _

/-- No step without steps of its own begins or ends an edit. -/
theorem isEdited_perform (s : Session) (step : Step) (i : SlotId) :
    (s.perform step).session.store.isEdited i = s.store.isEdited i := by
  have change := s.change_perform step
  by_cases hp : step.Puts
  · generalize (s.perform step).session = t at change ⊢
    cases change with
    | create name given => exact isEdited_putBuilder _ _ _ _
    | document hd => exact isEdited_putBuilder _ _ _ _
    | @call name e call u b he hb =>
      have same := (Eval.supplies_builderCall he).2.store
      have respects := call.respects_run b u.store
      rw [callBuilder, Outcome.map, isEdited_putBuilder, respects.isEdited i, same]
    | bind hst _ _ => rw [hst]
    | _ => exact hp.elim
  · exact (change.respects hp).isEdited i

/-- A slot is being edited up to the end of its edit. -/
theorem isEdited_act {a : Action} (hi : s.store.isEdited i = true) (ha : a ≠ .endEdit i) :
    (s.act a).store.isEdited i = true := by
  cases a with
  | perform step => exact (isEdited_perform s step i).trans hi
  | leaveScope name => exact (isEdited_leaveScope s name i).trans hi
  | beginEdit name target =>
    simp only [act]
    split
    · split
      · exact hi
      · simp [beginEdit, Store.isEdited_setEditing, hi]
    · exact hi
  | endEdit j =>
    have apart : i ≠ j := by
      rintro rfl
      exact ha rfl
    simp [act, endEdit, Store.isEdited_setEditing, apart, hi]

/-! ## What becomes of a builder -/

theorem builder_putBuilder (hi : i < s.store.size) (name : String) (b : Builder) :
    (s.putBuilder name b).store.builder i =
      if s.slotOf name = some i then b else s.store.builder i := by
  rcases s.putBuilder_cases name b with ⟨j, hf, hput⟩ | ⟨hn, hput⟩
  · have site := slotOf_eq_some_iff.mpr hf
    rw [hput, site, Store.builder_put]
    by_cases hij : i = j
    · subst hij
      simp [hi]
    · simp [hij, Ne.symm hij]
  · rw [hput, if_neg fun site => hn i (slotOf_eq_some_iff.mp site)]

theorem builder_leaveScope (hi : i < s.store.size) (name : String) :
    (s.leaveScope name).store.builder i =
      if s.slotOf name = some i then (s.store.builder i).leaveScope else s.store.builder i := by
  unfold leaveScope
  split
  · rename_i b hb
    rw [builder_putBuilder hi]
    split
    · rename_i site
      rw [builder?_of_slotOf site] at hb
      cases hb
      rfl
    · rfl
  · rename_i absent
    rw [if_neg]
    intro site
    rw [builder?_of_slotOf site] at absent
    cases absent

theorem session_perform_newDocument (s : Session) (name : String)
    (loaded : Except ConfigError DocumentConfig) (settings : List (Setting ValueExpr)) :
    (s.perform (.newDocument name loaded settings)).session =
      (s.document? loaded settings).elim s (s.putBuilder name) := by
  rw [session_perform_eq, Eval.step, Eval.newDocument, Eval.result_bind, document?]
  cases evaluated : (settings.mapM Eval.setting).result s with
  | none => rfl
  | some r =>
    obtain ⟨settings, u⟩ := r
    obtain rfl : u = s := Eval.returns_settings evaluated
    cases loaded with
    | error e => rfl
    | ok config =>
      cases hd : document (settings.foldl DocumentConfig.apply config) with
      | error e => simp [hd, Except.toOption]
      | ok doc => simp [hd, Except.toOption, Eval.result_bind, Eval.result_map]

/-- A call changes the builder of a slot being edited if it is made on the variable of the slot. -/
theorem builder_perform_call (hs : s.Sound) (hi : s.store.isEdited i = true) (name : String)
    (e : BuilderCall ContentExpr ValueExpr TextExpr) :
    (s.perform (.call name e)).session.store.builder i =
      s.edit i (.perform (.call name e)) (s.store.builder i) := by
  cases evaluated : (Eval.builderCall e).result s with
  | none => simp [session_perform_call_of_fails evaluated, edit, operation?, evaluated]
  | some r =>
    obtain ⟨call, u⟩ := r
    obtain ⟨hu, same, _⟩ := hs.builderCall evaluated
    have edited : u.store.isEdited i = true := by rw [same]; exact hi
    simp only [edit, operation?, evaluated, Option.map_some]
    rw [← same]
    cases hb : u.builder? name with
    | none =>
      have elsewhere : u.slotOf name ≠ some i := by
        intro site
        rw [builder?_of_slotOf site] at hb
        cases hb
      rw [session_perform_call_of_unknown evaluated hb, if_neg elsewhere, same]
    | some b =>
      have respects := call.respects_run b u.store
      have hlt := Nat.lt_of_lt_of_le (Store.lt_size_of_isEdited edited) respects.size
      rw [session_perform_call evaluated hb, callBuilder, Outcome.map, builder_putBuilder hlt]
      by_cases site : u.slotOf name = some i
      · rw [builder?_of_slotOf site] at hb
        cases hb
        rw [if_pos site]
        exact if_pos site
      · rw [if_neg site]
        exact (if_neg site).trans (respects.builder i edited)

/-- An action does to the builder of a slot being edited what its operation on the variable does. -/
theorem builder_act (hs : s.Sound) (hi : s.store.isEdited i = true) (a : Action) :
    (s.act a).store.builder i = s.edit i a (s.store.builder i) := by
  have hlt := Store.lt_size_of_isEdited hi
  cases a with
  | perform step =>
    cases step with
    | create name given => exact builder_putBuilder hlt name _
    | call name e => exact builder_perform_call hs hi name e
    | newDocument name config settings =>
      rw [act, session_perform_newDocument, edit, operation?]
      cases s.document? config settings with
      | none => rfl
      | some doc => exact builder_putBuilder hlt name doc
    | _ => exact ((s.change_perform _).respects id).builder i hi
  | leaveScope name => exact builder_leaveScope hlt name
  | beginEdit name target =>
    simp only [act]
    split
    · split
      · rfl
      · exact Store.builder_setEditing _ _ _ _
    · rfl
  | endEdit j => exact Store.builder_setEditing _ _ _ _

/-- What a run leaves of the builder, up to the end of the edit. -/
theorem builder_run {as : List Action} (hs : s.Sound) (hi : s.store.isEdited i = true)
    (ha : .endEdit i ∉ as) :
    (s.run as).store.isEdited i = true ∧
      (s.run as).store.builder i = s.edits i as (s.store.builder i) := by
  induction as generalizing s with
  | nil => exact ⟨hi, rfl⟩
  | cons a as ih =>
    obtain ⟨first, rest⟩ := not_or.mp (mt List.mem_cons.mpr ha)
    obtain ⟨edited, same⟩ := ih (hs.act a) (isEdited_act hi (Ne.symm first)) rest
    refine ⟨edited, ?_⟩
    rw [run_cons, same, builder_act hs hi, edits]

end Session

end Hypertext
