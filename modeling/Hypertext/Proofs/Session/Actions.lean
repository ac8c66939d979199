import Hypertext.Proofs.Session.Returns

/-! # Actions

A session changes at moments: a step is performed, a scope is left, an edit begins or ends. A run is
a row of such moments in any order, so every state that steps inside steps come through is a state
that a run leads to. -/

namespace Hypertext

inductive Action where
  /-- A step without steps of its own. -/
  | perform (step : Step)
  /-- The innermost scope of the variable's builder ends. -/
  | leaveScope (builder : String)
  /-- The handle's slot is edited through a builder variable from now on, unless it already is. -/
  | beginEdit (handle target : String)
  /-- The slot is free again. -/
  | endEdit (slot : SlotId)

namespace Session

def act (s : Session) : Action → Session
  | .perform step => (s.perform step).session
  | .leaveScope name => s.leaveScope name
  | .beginEdit handle target =>
    match s.handles.find? handle with
    | some h => if s.store.isEdited h.slot then s else s.beginEdit h.slot target
    | none => s
  | .endEdit i => s.endEdit i

def run (s : Session) (actions : List Action) : Session :=
  actions.foldl act s

@[simp] theorem run_nil (s : Session) : s.run [] = s := rfl

@[simp] theorem run_cons (s : Session) (a : Action) (as : List Action) :
    s.run (a :: as) = (s.act a).run as := rfl

theorem run_append (s : Session) (as bs : List Action) : s.run (as ++ bs) = (s.run as).run bs :=
  List.foldl_append

theorem act_beginEdit {s : Session} {name : String} {h : Handle}
    (hf : s.handles.find? name = some h) (target : String) :
    s.act (.beginEdit name target) =
      if s.store.isEdited h.slot then s else s.beginEdit h.slot target := by
  simp only [act, hf]

/-- A step leaves the session that its evaluation leaves; without one, nothing changes. -/
theorem session_perform_eq (s : Session) (step : Step) :
    (s.perform step).session = (((Eval.step step).result s).map (·.2)).getD s := by
  unfold Eval.result
  rw [perform]
  cases ((Eval.step step).run s).run.value <;> simp

theorem session_perform_of_fails {s : Session} {step : Step}
    (h : (Eval.step step).result s = none) : (s.perform step).session = s := by
  rw [session_perform_eq, h]
  rfl

theorem session_perform_of_returns {s t : Session} {step : Step} {a : Answer}
    (h : (Eval.step step).Returns s a t) : (s.perform step).session = t := by
  rw [session_perform_eq, h]
  rfl

theorem session_perform (s : Session) (step : Step) :
    (s.perform step).session = s ∨
      ∃ a, (Eval.step step).Returns s a (s.perform step).session := by
  rw [session_perform_eq]
  cases h : (Eval.step step).result s with
  | none => exact .inl rfl
  | some r => exact .inr ⟨r.1, h⟩

/-- The states that runs lead to. -/
inductive Reachable : Session → Prop
  | start : Reachable {}
  | act {s : Session} (a : Action) (h : Reachable s) : Reachable (s.act a)

theorem Reachable.run {s : Session} (h : s.Reachable) (actions : List Action) :
    (s.run actions).Reachable := by
  induction actions generalizing s with
  | nil => exact h
  | cons a as ih => exact ih (h.act a)

/-! ## Steps inside steps -/

/-- To open a scope is a step like others. -/
theorem act_enterScope {s : Session} {name : String} {b : Builder}
    (h : s.builder? name = some b) :
    s.act (.perform (.call name .enterScope)) = (s.enterScope name b).value := by
  have hr : (Eval.step (.call name .enterScope)).Returns s .done (s.enterScope name b).value := by
    simp only [Eval.step, Eval.returns_bind]
    refine ⟨.enterScope, s, Eval.returns_pure.mpr ⟨rfl, rfl⟩, s, s,
      Eval.returns_get.mpr ⟨rfl, rfl⟩, b, s, Eval.returns_builder.mpr ⟨h, rfl⟩, ?_⟩
    simp only [Eval.complete, Eval.returns_bind]
    exact ⟨(), s, Eval.returns_ofLogged.mpr ⟨rfl, rfl⟩, ⟨⟩, _, Eval.returns_set.mpr rfl,
      Eval.returns_pure.mpr ⟨rfl, rfl⟩⟩
  exact session_perform_of_returns hr

/-- The subject of a step is only looked at. -/
@[simp] theorem session_observe (quiet : Bool) (step : Step) (progress : Progress) :
    (observe quiet step progress).session = progress.session := by
  cases quiet <;> rfl

mutual

/-- The actions that a step comes to. -/
def actions (quiet : Bool) (s : Session) : Step → List Action
  | .nest name careful steps =>
    match s.builder? name with
    | none => []
    | some b =>
      .perform (.call name .enterScope) ::
        (allActions quiet careful (s.enterScope name b).value steps ++ [.leaveScope name])
  | .edit name target careful steps =>
    match s.handles.find? name with
    | none => []
    | some h =>
      if s.store.isEdited h.slot then []
      else
        .beginEdit name target ::
          (allActions quiet careful (s.beginEdit h.slot target) steps ++ [.endEdit h.slot])
  | .abort => []
  | step => [.perform step]

/-- The actions of steps in order, up to where they break off. -/
def allActions (quiet careful : Bool) (s : Session) : List Step → List Action
  | [] => []
  | step :: steps =>
    let first := runStep quiet s step
    if first.aborting || (careful && first.report.answer.isError) then actions quiet s step
    else actions quiet s step ++ allActions quiet careful first.session steps

end

mutual

/-- A step leads where its actions lead. -/
theorem session_runStep (quiet : Bool) (s : Session) (step : Step) :
    (s.runStep quiet step).session = s.run (s.actions quiet step) := by
  cases step with
  | nest name careful steps =>
    rw [runStep, session_observe, actions]
    cases hb : s.builder? name with
    | none => rfl
    | some b =>
      simp only [run_cons, act_enterScope hb, run_append, ← session_runSteps]
      rfl
  | edit name target careful steps =>
    rw [runStep, session_observe, actions]
    cases hf : s.handles.find? name with
    | none => rfl
    | some h =>
      by_cases he : s.store.isEdited h.slot
      · simp [he]
      · simp only [if_neg he, run_cons, act_beginEdit hf, run_append, ← session_runSteps]
        rfl
  | abort =>
    rw [runStep, session_observe, actions]
    rfl
  | _ =>
    simp only [runStep, session_observe, actions]
    rfl

theorem session_runSteps (quiet careful : Bool) (s : Session) (steps : List Step) :
    (s.runSteps quiet careful steps).session = s.run (s.allActions quiet careful steps) := by
  cases steps with
  | nil =>
    rw [runSteps, allActions]
    rfl
  | cons step steps =>
    simp only [runSteps, allActions]
    split
    · exact session_runStep quiet s step
    · rw [run_append, ← session_runStep quiet s step]
      exact session_runSteps quiet careful _ steps

end

theorem Reachable.runStep {s : Session} (h : s.Reachable) (quiet : Bool) (step : Step) :
    (s.runStep quiet step).session.Reachable := by
  rw [session_runStep]
  exact h.run _

theorem Reachable.runSteps {s : Session} (h : s.Reachable) (quiet careful : Bool)
    (steps : List Step) : (s.runSteps quiet careful steps).session.Reachable := by
  rw [session_runSteps]
  exact h.run _

end Session

end Hypertext
