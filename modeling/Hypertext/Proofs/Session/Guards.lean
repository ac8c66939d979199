import Hypertext.Proofs.Session.Edits

/-! # Guards

An edit puts a guard on a slot, and no more than one guard is on a slot. A slot with a guard takes
nothing and shows nothing, through any of its handles; a slot without one is free. The guards are
counted by the actions alone, from the edits that began and have not ended. -/

namespace Hypertext

/-- The slots with guards behind the action. A slot that has one already gets no other. -/
def Action.guards (s : Session) (held : List SlotId) : Action → List SlotId
  | .beginEdit name _ =>
    match s.handles.find? name with
    | some h => if h.slot ∈ held then held else h.slot :: held
    | none => held
  | .endEdit i => held.filter (· ≠ i)
  | .perform _ | .leaveScope _ => held

namespace Session

variable {s t u : Session} {held : List SlotId} {name : String} {h : Handle} {i : SlotId}

/-- The slots with guards behind a run. -/
def guards (s : Session) (held : List SlotId) : List Action → List SlotId
  | [] => held
  | a :: as => (s.act a).guards (a.guards s held) as

theorem guards_append (s : Session) (held : List SlotId) (as bs : List Action) :
    s.guards held (as ++ bs) = (s.run as).guards (s.guards held as) bs := by
  induction as generalizing s held with
  | nil => rfl
  | cons a as ih => exact ih (s.act a) (a.guards s held)

theorem guards_beginEdit (hf : s.handles.find? name = some h) (held : List SlotId)
    (target : String) :
    (Action.beginEdit name target).guards s held =
      if h.slot ∈ held then held else h.slot :: held := by
  simp only [Action.guards, hf]

/-- The states that runs lead to, with the slots that have guards then. -/
inductive Guarded : Session → List SlotId → Prop
  | start : Guarded {} []
  | act {s : Session} {held : List SlotId} (a : Action) (h : Guarded s held) :
      Guarded (s.act a) (a.guards s held)

namespace Guarded

theorem reachable (hs : s.Guarded held) : s.Reachable := by
  induction hs with
  | start => exact .start
  | act a _ ih => exact ih.act a

theorem run (hs : s.Guarded held) (as : List Action) : (s.run as).Guarded (s.guards held as) := by
  induction as generalizing s held with
  | nil => exact hs
  | cons a as ih => exact ih (hs.act a)

/-- The slots with guards are those being edited. -/
theorem isEdited_iff (hs : s.Guarded held) (i : SlotId) : s.store.isEdited i = true ↔ i ∈ held := by
  induction hs generalizing i with
  | start =>
    have unedited : ({} : Session).store.isEdited i = false := rfl
    simp [unedited]
  | @act s held a hs ih =>
    cases a with
    | perform step =>
      rw [Session.act, isEdited_perform]
      exact ih i
    | leaveScope name =>
      rw [Session.act, isEdited_leaveScope]
      exact ih i
    | beginEdit name target =>
      cases hf : s.handles.find? name with
      | none =>
        simp only [Session.act, Action.guards, hf]
        exact ih i
      | some h =>
        rw [Session.act_beginEdit hf, guards_beginEdit hf]
        by_cases hm : h.slot ∈ held
        · rw [if_pos ((ih h.slot).mpr hm), if_pos hm]
          exact ih i
        · have known := hs.reachable.sound.handle hf
          rw [if_neg (mt (ih h.slot).mp hm), if_neg hm, List.mem_cons, ← ih i, beginEdit,
            Store.isEdited_setEditing]
          by_cases hi : i = h.slot
          · simp [hi, known]
          · simp [hi]
    | endEdit j =>
      rw [Session.act, Session.endEdit, Action.guards, Store.isEdited_setEditing, List.mem_filter,
        ← ih i]
      by_cases hj : i = j
      · subst hj
        by_cases known : i < s.store.size
        · simp [known]
        · have absent := mt Store.lt_size_of_isEdited known
          simp [known, absent]
      · simp [hj]

theorem isEdited_eq_false (hs : s.Guarded held) (hi : i ∉ held) : s.store.isEdited i = false :=
  eq_false_of_ne_true (mt (hs.isEdited_iff i).mp hi)

/-- A slot without a guard can be edited. -/
theorem act_beginEdit (hs : s.Guarded held) (hf : s.handles.find? name = some h)
    (free : h.slot ∉ held) (target : String) :
    s.act (.beginEdit name target) = s.beginEdit h.slot target := by
  have unedited := hs.isEdited_eq_false free
  rw [Session.act_beginEdit hf, if_neg (by simp [unedited])]

/-- To edit a slot puts a guard on it. -/
theorem beginEdit (hs : s.Guarded held) (hf : s.handles.find? name = some h)
    (free : h.slot ∉ held) (target : String) :
    (s.beginEdit h.slot target).Guarded (h.slot :: held) := by
  have begun := hs.act (.beginEdit name target)
  rwa [hs.act_beginEdit hf free, guards_beginEdit hf, if_neg free] at begun

end Guarded

/-! ## Steps inside steps -/

/-- Behind the run the same slots have guards, and none of their guards has ended. -/
structure Balanced (s : Session) (held : List SlotId) (as : List Action) : Prop where
  guards : s.guards held as = held
  kept : ∀ i ∈ held, .endEdit i ∉ as

namespace Balanced

variable {as bs : List Action}

theorem nil (s : Session) (held : List SlotId) : s.Balanced held [] where
  guards := rfl
  kept _ _ := List.not_mem_nil

theorem single {a : Action} (hg : a.guards s held = held) (ha : ∀ i, .endEdit i ≠ a) :
    s.Balanced held [a] where
  guards := hg
  kept i _ hm := ha i (List.mem_singleton.mp hm)

theorem append (h : s.Balanced held as) (h' : (s.run as).Balanced held bs) :
    s.Balanced held (as ++ bs) where
  guards := by rw [guards_append, h.guards, h'.guards]
  kept i hi hm := (List.mem_append.mp hm).elim (h.kept i hi) (h'.kept i hi)

theorem guarded (h : s.Balanced held as) (hs : s.Guarded held) : (s.run as).Guarded held := by
  have run := hs.run as
  rwa [h.guards] at run

/-- Between its beginning and its end, an edit has a guard on its slot. -/
theorem edit (hs : s.Guarded held) (hf : s.handles.find? name = some h) (free : h.slot ∉ held)
    {target : String} (inner : (s.beginEdit h.slot target).Balanced (h.slot :: held) as) :
    s.Balanced held (.beginEdit name target :: (as ++ [.endEdit h.slot])) := by
  have begun := hs.act_beginEdit hf free target
  have apart : ∀ i ∈ held, i ≠ h.slot := by
    rintro i hi rfl
    exact free hi
  constructor
  · have others : held.filter (· ≠ h.slot) = held :=
      List.filter_eq_self.mpr fun i hi => by simpa using apart i hi
    rw [Session.guards, begun, guards_beginEdit hf, if_neg free, guards_append, inner.guards]
    simpa [Session.guards, Action.guards] using others
  · intro i hi hm
    rcases List.mem_cons.mp hm with first | hm
    · cases first
    · rcases List.mem_append.mp hm with hm | last
      · exact inner.kept i (List.mem_cons_of_mem _ hi) hm
      · cases List.mem_singleton.mp last
        exact apart _ hi rfl

end Balanced

mutual

/-- Steps take guards and end them in pairs, wherever they break off. -/
theorem Guarded.balanced {s : Session} {held : List SlotId} (hs : s.Guarded held) (quiet : Bool)
    (step : Step) : s.Balanced held (s.actions quiet step) := by
  cases step with
  | nest name careful steps =>
    rw [actions]
    cases hb : s.builder? name with
    | none => exact .nil s held
    | some b =>
      have entered : s.Balanced held [.perform (.call name .enterScope)] := .single rfl nofun
      have behind := entered.guarded hs
      rw [run_cons, act_enterScope hb, run_nil] at behind
      have inner := (behind.allBalanced quiet careful steps).append
        (.single (a := .leaveScope name) rfl nofun)
      refine entered.append ?_
      rwa [run_cons, act_enterScope hb, run_nil]
  | edit name target careful steps =>
    rw [actions]
    cases hf : s.handles.find? name with
    | none => exact .nil s held
    | some h =>
      by_cases he : s.store.isEdited h.slot
      · simpa [he] using Balanced.nil s held
      · have free := mt (hs.isEdited_iff h.slot).mpr he
        have inner := (hs.beginEdit hf free target).allBalanced quiet careful steps
        simpa only [if_neg he] using inner.edit hs hf free
  | abort =>
    rw [actions]
    exact .nil s held
  | _ =>
    simp only [actions]
    exact .single rfl nofun

theorem Guarded.allBalanced {s : Session} {held : List SlotId} (hs : s.Guarded held)
    (quiet careful : Bool) (steps : List Step) :
    s.Balanced held (s.allActions quiet careful steps) := by
  cases steps with
  | nil =>
    rw [allActions]
    exact .nil s held
  | cons step steps =>
    have first := hs.balanced quiet step
    have behind := first.guarded hs
    simp only [allActions]
    split
    · exact first
    · refine first.append ?_
      rw [← session_runStep] at behind ⊢
      exact behind.allBalanced quiet careful steps

end

/-! ## Handles of guarded slots -/

@[simp] theorem answer_observe (quiet : Bool) (step : Step) (progress : Progress) :
    (observe quiet step progress).report.answer = progress.report.answer := by
  cases quiet <;> rfl

@[simp] theorem inner_observe (quiet : Bool) (step : Step) (progress : Progress) :
    (observe quiet step progress).report.inner = progress.report.inner := by
  cases quiet <;> rfl

/-- An edit of a slot as a whole. Its steps run under a guard on the slot, up to their end or to
where they break off. Then the guard is gone, and the slot holds what their actions have made of its
builder. -/
structure Edited (held : List SlotId) (i : SlotId) (begun : Session) (inside : Trail)
    (as : List Action) (ended : Progress) : Prop where
  during : begun.Guarded (i :: held)
  answer : ended.report.answer = .ran inside.aborting
  inner : ended.report.inner = inside.reports
  session : ended.session = (begun.run as).endEdit i
  behind : ended.session.Guarded held
  builder : ended.session.store.builder i = begun.edits i as (begun.store.builder i)

/-- Without a guard on its slot, a handle is refused nothing but cycles, and its slot can be
edited. -/
structure Free (s : Session) (held : List SlotId) (t : Handle) : Prop where
  clear : (t.clear s.store).refusal = none
  fill : ∀ (call : HandleCall Content) (name : String),
    (call.run t s.store).refusal ≠ some (.slotBusy name)
  guard : ∀ name target, s.handles.find? name = some t →
    s.act (.beginEdit name target) = s.beginEdit t.slot target ∧
      (s.beginEdit t.slot target).store.builder t.slot = s.store.builder t.slot
  edit : ∀ name target, s.handles.find? name = some t → ∀ quiet careful steps,
    Edited held t.slot (s.beginEdit t.slot target)
      ((s.beginEdit t.slot target).runSteps quiet careful steps)
      ((s.beginEdit t.slot target).allActions quiet careful steps)
      (s.runStep quiet (.edit name target careful steps))

/-- With a guard on its slot, a handle is refused everything, and it shows nothing. Content is still
looked through first. -/
structure Busy (s : Session) (t : Handle) : Prop where
  clear : t.clear s.store = { state := s.store, refusal := some (.slotBusy t.name) }
  fill : ∀ (call : HandleCall Content), ∀ c ∈ call.content?,
    call.run t s.store =
      { state := s.store
        refusal := some (if c.leadsTo s.store t.slot then .selfReference t.name
          else .slotBusy t.name) }
  guard : ∀ name target, s.handles.find? name = some t → s.act (.beginEdit name target) = s
  edit : ∀ name target, s.handles.find? name = some t → ∀ quiet careful steps,
    (s.runStep quiet (.edit name target careful steps)).session = s ∧
    (s.runStep quiet (.edit name target careful steps)).report.answer = .borrowed ∧
    (s.runStep quiet (.edit name target careful steps)).report.inner = []
  render : t.render s.store = ⟨"", [.beingEdited t.name]⟩
  isEmpty : s.store.isEmpty t.slot = false

theorem Guarded.edited (hs : s.Guarded held) (hf : s.handles.find? name = some h)
    (free : h.slot ∉ held) (target : String) (quiet careful : Bool) (steps : List Step) :
    Edited held h.slot (s.beginEdit h.slot target)
      ((s.beginEdit h.slot target).runSteps quiet careful steps)
      ((s.beginEdit h.slot target).allActions quiet careful steps)
      (s.runStep quiet (.edit name target careful steps)) := by
  have unedited := hs.isEdited_eq_false free
  have begun := hs.beginEdit hf free target
  have edited := (begun.isEdited_iff h.slot).mpr List.mem_cons_self
  have kept := (begun.allBalanced quiet careful steps).kept h.slot List.mem_cons_self
  have run : (s.runStep quiet (.edit name target careful steps)).session =
      ((s.beginEdit h.slot target).run
        ((s.beginEdit h.slot target).allActions quiet careful steps)).endEdit h.slot := by
    rw [runStep, session_observe, ← session_runSteps]
    simp [hf, unedited]
  refine ⟨begun, ?_, ?_, run, ?_, ?_⟩
  · rw [runStep, answer_observe]
    simp [hf, unedited]
  · rw [runStep, inner_observe]
    simp [hf, unedited]
  · rw [session_runStep]
    exact (hs.balanced quiet _).guarded hs
  · rw [run, Session.endEdit, Store.builder_setEditing,
      (builder_run begun.reachable.sound edited kept).2]

theorem Guarded.free (hs : s.Guarded held) (hh : h.slot ∉ held) : s.Free held h where
  clear := by
    rw [Handle.clear, if_neg (by simp [hs.isEdited_eq_false hh])]
  fill call name := by
    have unedited := hs.isEdited_eq_false hh
    rcases HandleCall.run_cases call h s.store with ⟨_, hrun⟩ | ⟨_, ⟨edited, _⟩ | ⟨_, accepted, _⟩⟩
    · rw [hrun]
      simp
    · rw [unedited] at edited
      cases edited
    · rw [accepted]
      simp
  guard name target hf := ⟨hs.act_beginEdit hf hh target, Store.builder_setEditing _ _ _ _⟩
  edit name target hf quiet careful steps := hs.edited hf hh target quiet careful steps

theorem Guarded.busy (hs : s.Guarded held) (hh : h.slot ∈ held) : s.Busy h := by
  have edited := (hs.isEdited_iff h.slot).mpr hh
  constructor
  · rw [Handle.clear, if_pos edited]
  · intro call c hc
    rcases HandleCall.run_cases call h s.store with ⟨⟨d, hd, found⟩, hrun⟩ | ⟨unseen, hrun⟩
    · rw [Option.mem_unique hd hc, ← Content.leadsTo_iff] at found
      rw [hrun, if_pos found]
    · have unfound := mt Content.leadsTo_iff.mp (unseen c hc)
      rcases hrun with ⟨_, hrun⟩ | ⟨unedited, _⟩
      · rw [hrun, if_neg unfound]
      · rw [edited] at unedited
        cases unedited
  · intro name target hf
    rw [Session.act_beginEdit hf, if_pos edited]
  · intro name target hf quiet careful steps
    rw [runStep, session_observe, answer_observe, inner_observe]
    simp [hf, edited]
  · simp [Handle.render, Store.flattenSlot, Store.depthBound, Store.walkSlot, edited, Walk.logged,
      Walk.html, Piece.render]
  · simp [Store.isEmpty, edited]

/-- **Guards decide.** Whatever guards have been put on slots, and whatever has been done meanwhile:
a handle of a slot without a guard is free, a handle of one with a guard is busy. When the guard
ends, the slot has none, and it holds what the operations on the guard's variable have made of its
builder since. -/
theorem guards_decide (hs : s.Guarded held) :
    (∀ t : Handle, t.slot ∉ held → s.Free held t) ∧
    (∀ t : Handle, t.slot ∈ held → s.Busy t) ∧
    ∀ i ∈ held, ∀ as, .endEdit i ∉ as →
      ∃ left, ((s.run as).endEdit i).Guarded left ∧ i ∉ left ∧
        ((s.run as).endEdit i).store.builder i = s.edits i as (s.store.builder i) := by
  refine ⟨fun t => hs.free, fun t => hs.busy, ?_⟩
  intro i hi as ha
  have edited := (hs.isEdited_iff i).mpr hi
  refine ⟨_, (hs.run as).act (.endEdit i), ?_, ?_⟩
  · simp [Action.guards]
  · rw [Session.endEdit, Store.builder_setEditing, (builder_run hs.reachable.sound edited ha).2]

/-- Slots A and B are being edited, B while A is. -/
def nestedGuards : List Action :=
  [.perform (.registry "r" .create),
    .perform (.registry "r" (.declare "A" (some "a"))),
    .perform (.registry "r" (.declare "B" (some "b"))),
    .perform (.registry "r" (.declare "C" (some "c"))),
    .beginEdit "a" "x",
    .beginEdit "b" "y"]

/-- What is done meanwhile: A gets a text through its guard, a call on its handle is refused, and
the guard of B ends. -/
def meanwhile : List Action :=
  [.perform (.call "x" (.append (.text (.literal "t")))), .perform (.handleCall "a" .clear),
    .endEdit 1]

theorem guards_decide_nested :
    (run {} nestedGuards).Guarded [1, 0] ∧
    (run {} nestedGuards).Busy ⟨"A", 0, true⟩ ∧
    (run {} nestedGuards).Free [1, 0] ⟨"C", 2, true⟩ ∧
    ∃ left, (((run {} nestedGuards).run meanwhile).endEdit 0).Guarded left ∧ 0 ∉ left ∧
      (((run {} nestedGuards).run meanwhile).endEdit 0).store.builder 0 =
        { name := "A", fragments := #[.piece (.text "t")] } := by
  have guarded : (run {} nestedGuards).Guarded [1, 0] := by
    have counted : guards {} [] nestedGuards = [1, 0] := by decide +kernel
    rw [← counted]
    exact Guarded.start.run nestedGuards
  obtain ⟨free, busy, ends⟩ := guards_decide guarded
  obtain ⟨left, after, gone, builder⟩ := ends 0 (by decide) meanwhile (by simp [meanwhile])
  refine ⟨guarded, busy ⟨"A", 0, true⟩ (by decide), free ⟨"C", 2, true⟩ (by decide), left, after,
    gone, builder.trans ?_⟩
  decide +kernel

end Session

end Hypertext
