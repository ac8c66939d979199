import Hypertext.Proofs.Nesting.Scopes
import Hypertext.Proofs.Session.Made
import Hypertext.Proofs.Session.Sound

/-! # Scopes in a session

Steps run inside a scope of a builder. Whatever else they do, as long as they leave the builder in
its variable and open no scope that they leave open, the scope's end finds the builder as it was at
the start, with more behind it. -/

namespace Hypertext

open Piece (Neutral)

/-! ## Steps that keep a builder -/

/-- The builder is not taken out of the variable. -/
def ContentExpr.Spares (name : String) : ContentExpr → Prop
  | .move n => n ≠ name
  | .empty | .text _ | .markup _ | .copy _ | .handle _ => True

mutual

/-- The step, with the steps inside it, leaves the builder in the variable and does not reset it,
and no scope of it is opened without an end. -/
def Step.Keeps (name : String) : Step → Prop
  | .create n _ | .newDocument n .. | .share n _ => n ≠ name
  | .call n c =>
    c.Permitted .any (ContentExpr.Spares name) (fun _ => True) ∧ (n = name → c.KeepsScopes)
  | .handleCall _ c => c.Permitted (ContentExpr.Spares name)
  | .nest _ _ steps => Step.KeepAll name steps
  | .edit _ target _ steps => target ≠ name ∧ Step.KeepAll name steps
  | .placeholder .. | .look .. | .copyHandle .. | .sameSlot .. | .lookHandle .. | .registry ..
  | .abort => True

def Step.KeepAll (name : String) : List Step → Prop
  | [] => True
  | step :: steps => step.Keeps name ∧ Step.KeepAll name steps

end

namespace Step

/-- The steps inside the step. -/
def inside : Step → List Step
  | .nest _ _ steps | .edit _ _ _ steps => steps
  | _ => []

theorem Keeps.inside {step : Step} {name : String} (h : step.Keeps name) :
    KeepAll name step.inside := by
  cases step with
  | nest _ _ steps => exact h
  | edit _ _ _ steps => exact h.2
  | _ => trivial

theorem sizeOf_inside (step : Step) (steps : List Step) :
    sizeOf step.inside < sizeOf (step :: steps) := by
  cases step <;> simp [Step.inside] <;> omega

end Step

namespace Eval

variable {s t u : Session} {name : String}

theorem find?_content {e : ContentExpr} {c : Content} (he : e.Spares name)
    (h : (content e).Returns u c t) : t.builders.find? name = u.builders.find? name := by
  cases e with
  | empty => rw [(returns_pure.mp h).2]
  | text e | markup e =>
    obtain ⟨text, hr, _⟩ := returns_map.mp h
    rw [returns_text hr]
  | copy n =>
    obtain ⟨b, _, hb, hr⟩ := returns_bind.mp h
    rw [(returns_pure.mp hr).2, (returns_builder.mp hb).2]
  | move n =>
    obtain ⟨b, hr, _⟩ := returns_map.mp h
    rw [(returns_takeBuilder.mp hr).2]
    exact Bindings.find?_erase_of_ne _ (Ne.symm he)
  | handle n =>
    obtain ⟨handle, hr, _⟩ := returns_map.mp h
    rw [(returns_handle.mp hr).2]

theorem find?_builderCall {e : BuilderCall ContentExpr ValueExpr TextExpr}
    {call : BuilderCall Content AttributeValue String}
    (he : e.Permitted .any (ContentExpr.Spares name) fun _ => True)
    (h : (builderCall e).Returns s call t) : t.builders.find? name = s.builders.find? name :=
  (permitted_builderCall (I := fun u => u.builders.find? name = s.builders.find? name)
    (Q := fun _ => True) (R := fun _ => True)
    (fun _ he _ _ _ hu hc => ⟨trivial, (find?_content he hc).trans hu⟩)
    (fun _ _ _ _ _ _ => trivial) he rfl h).2

theorem find?_handleCall {e : HandleCall ContentExpr} {call : HandleCall Content}
    (he : e.Permitted (ContentExpr.Spares name)) (h : (handleCall e).Returns s call t) :
    t.builders.find? name = s.builders.find? name :=
  (permitted_handleCall (I := fun u => u.builders.find? name = s.builders.find? name)
    (Q := fun _ => True) (fun _ he _ _ _ hu hc => ⟨trivial, (find?_content he hc).trans hu⟩)
    he rfl h).2

theorem keepsScopes_builderCall {e : BuilderCall ContentExpr ValueExpr TextExpr}
    {call : BuilderCall Content AttributeValue String} (he : e.KeepsScopes)
    (h : (builderCall e).Returns s call t) : call.KeepsScopes := by
  cases e with
  | attributes given | content e | append e | placeWith _ e | set _ e | contents es | comment e =>
    obtain ⟨_, _, rfl⟩ := returns_map.mp h
    trivial
  | enterScope | reset => exact he.elim
  | _ =>
    rw [(returns_pure.mp h).1]
    trivial

end Eval

/-! ## A builder's place -/

namespace Session

variable {s t u : Session} {name n : String} {place : Option SlotId} {b c : Builder}

/-- The variable stands for the builder: in the slot, if there is one, or as its own. -/
def Has (s : Session) (name : String) (place : Option SlotId) (b : Builder) : Prop :=
  ∃ site, s.builders.find? name = some site ∧ site.slot? = place ∧ s.builderAt site = b

theorem Has.builder? (h : s.Has name place b) : s.builder? name = some b := by
  obtain ⟨site, hf, _, rfl⟩ := h
  rw [Session.builder?, hf]
  rfl

theorem exists_has (h : s.builder? name = some b) : ∃ place, s.Has name place b := by
  obtain ⟨site, hf, rfl⟩ := Option.map_eq_some_iff.mp h
  exact ⟨_, site, hf, rfl, rfl⟩

theorem Has.edited (hs : s.Sound) (h : s.Has name place b) {i : SlotId} (hi : place = some i) :
    s.store.isEdited i = true := by
  obtain ⟨site, hf, rfl, _⟩ := h
  cases site with
  | own b => cases hi
  | slot j =>
    cases hi
    exact hs.edited i (mem_sites_of_find? hf)

/-- The builder stays in its variable while others are dealt with. -/
theorem Has.frame (hs : s.Sound) (h : s.Has name place b)
    (hf : t.builders.find? name = s.builders.find? name) (hr : s.store.Respects t.store) :
    t.Has name place b := by
  obtain ⟨site, hsite, rfl, rfl⟩ := h
  refine ⟨site, hf.trans hsite, rfl, ?_⟩
  cases site with
  | own b => rfl
  | slot i => exact hr.builder i (hs.edited i (mem_sites_of_find? hsite))

theorem Has.putBuilder_self (hs : s.Sound) (h : s.Has name place b) (c : Builder) :
    (s.putBuilder name c).Has name place c := by
  obtain ⟨site, hf, rfl, _⟩ := h
  rcases s.putBuilder_cases name c with ⟨i, hi, hput⟩ | ⟨hn, hput⟩
  · have hlt := Store.lt_size_of_isEdited (hs.edited i (mem_sites_of_find? hi))
    rw [hf] at hi
    cases hi
    rw [hput]
    exact ⟨_, hf, rfl, Store.builder_put_self hlt c⟩
  · rw [hput]
    cases site with
    | own b => exact ⟨.own c, Bindings.find?_insert_self _ _ _, rfl, rfl⟩
    | slot i => exact absurd hf (hn i)

theorem Has.putBuilder_of_ne (hs : s.Sound) (h : s.Has name place b) (hne : n ≠ name)
    (c : Builder) : (s.putBuilder n c).Has name place b := by
  obtain ⟨site, hf, rfl, rfl⟩ := h
  rcases s.putBuilder_cases n c with ⟨i, hi, hput⟩ | ⟨_, hput⟩
  · rw [hput]
    refine ⟨site, hf, rfl, ?_⟩
    cases site with
    | own b => rfl
    | slot j =>
      refine Store.builder_put_of_ne _ ?_ c
      rintro rfl
      exact hne (hs.eq_of_find? hi hf)
  · rw [hput]
    refine ⟨site, ?_, rfl, ?_⟩
    · rw [← hf]
      exact Bindings.find?_insert_of_ne _ _ hne.symm
    · cases site <;> rfl

theorem Has.leaveScope (hs : s.Sound) (h : s.Has name place b) :
    (s.leaveScope name).Has name place b.leaveScope := by
  rw [Session.leaveScope, h.builder?]
  exact h.putBuilder_self hs b.leaveScope

theorem Has.leaveScope_of_ne (hs : s.Sound) (h : s.Has name place b) (hne : n ≠ name) :
    (s.leaveScope n).Has name place b := by
  unfold Session.leaveScope
  split
  · exact h.putBuilder_of_ne hs hne _
  · exact h

theorem Has.beginEdit (h : s.Has name place b) {target : String} (hne : target ≠ name)
    (i : SlotId) : (s.beginEdit i target).Has name place b := by
  obtain ⟨site, hf, rfl, rfl⟩ := h
  refine ⟨site, ?_, rfl, ?_⟩
  · rw [← hf]
    exact Bindings.find?_push_of_ne _ _ hne.symm
  · cases site with
    | own b => rfl
    | slot j => exact Store.builder_setEditing _ _ _ _

theorem Has.endEdit (h : s.Has name place b) {i : SlotId} (hi : place ≠ some i) :
    (s.endEdit i).Has name place b := by
  obtain ⟨site, hf, rfl, rfl⟩ := h
  refine ⟨site, ?_, rfl, ?_⟩
  · refine Bindings.find?_keep hf ?_
    cases site with
    | own b => rfl
    | slot j =>
      have hij : i ≠ j := fun h => hi (h ▸ rfl)
      simp [Site.isSlot, hij]
  · cases site with
    | own b => rfl
    | slot j => exact Store.builder_setEditing _ _ _ _

/-! ## Steps inside the scope -/

theorem grows_perform {base : List Fragment} {scopes : List Scope} {step : Step}
    (hs : s.Reachable) (hk : step.Keeps name) (h : s.Has name place b) (hb : b.Grows base scopes) :
    ∃ c, (s.perform step).session.Has name place c ∧ c.Grows base scopes := by
  have sound := hs.sound
  have change := s.change_perform step
  generalize (s.perform step).session = t at change ⊢
  cases change with
  | create n given => exact ⟨b, h.putBuilder_of_ne sound hk _, hb⟩
  | document hd => exact ⟨b, h.putBuilder_of_ne sound hk _, hb⟩
  | @call n e call u d he hd =>
    obtain ⟨soundu, same, within⟩ := sound.builderCall he
    have hu : u.Has name place b := by
      refine h.frame sound (Eval.find?_builderCall hk.1 he) ?_
      rw [same]
      exact .refl _
    have respects := call.respects_run d u.store
    have made := (Eval.made_builderCall e.permitted_any hs.made he).1
    obtain ⟨_, hst⟩ := BuilderCall.scoped_run (soundu.builder? hd) soundu.store within
    have soundr := soundu.withStore respects hst
    have hr := Has.frame (t := { u with store := (call.run d u.store).state.2 }) soundu hu rfl
      respects
    by_cases hn : n = name
    · subst hn
      rw [hu.builder?] at hd
      cases hd
      have keeps := Eval.keepsScopes_builderCall (hk.2 rfl) he
      exact ⟨_, hr.putBuilder_self soundr _, BuilderCall.grows_run keeps made hb u.store⟩
    · exact ⟨b, hr.putBuilder_of_ne soundr hn _, hb⟩
  | share hd =>
    refine ⟨b, h.frame sound ?_ (.allocate s.store _), hb⟩
    exact Bindings.find?_erase_of_ne _ (Ne.symm hk)
  | @handleCall n e call u handle he hh =>
    have kept : u.builders.find? name = s.builders.find? name := Eval.find?_handleCall hk he
    refine ⟨b, h.frame sound kept ?_, hb⟩
    rw [← (sound.handleCall he).2.1]
    exact call.respects_run handle u.store
  | declare hr hd hst hbs _ =>
    refine ⟨b, h.frame sound (by rw [hbs]) ?_, hb⟩
    rw [hst]
    exact Registry.respects_declare hd
  | bind hst hbs _ =>
    refine ⟨b, h.frame sound (by rw [hbs]) ?_, hb⟩
    rw [hst]
    exact .refl _

/-- The steps only add to the builder, whatever it has that is to be kept. -/
def GrowBy (quiet : Bool) (name : String) (place : Option SlotId) (steps : List Step) : Prop :=
  ∀ ⦃s : Session⦄ ⦃b : Builder⦄ ⦃base : List Fragment⦄ ⦃scopes : List Scope⦄, s.Reachable →
    s.Has name place b → b.Grows base scopes → ∀ careful,
      ∃ c, (s.runSteps quiet careful steps).session.Has name place c ∧ c.Grows base scopes

/-- A step inside the scope only adds to the builder, as the steps inside it do. -/
theorem grows_runStep {base : List Fragment} {scopes : List Scope} {step : Step} {quiet : Bool}
    (inside : GrowBy quiet name place step.inside) (hs : s.Reachable) (hk : step.Keeps name)
    (h : s.Has name place b) (hb : b.Grows base scopes) :
    ∃ c, (s.runStep quiet step).session.Has name place c ∧ c.Grows base scopes := by
  cases step with
  | nest n careful steps =>
    rw [Session.runStep, session_observe]
    split
    · exact ⟨b, h, hb⟩
    · rename_i d hd
      have entered := hs.act (.perform (.call n .enterScope))
      rw [act_enterScope hd] at entered
      have ended := (entered.runSteps quiet careful steps).sound
      by_cases hn : n = name
      · rw [hn] at hd entered ended ⊢
        rw [h.builder?] at hd
        cases hd
        -- inside, the fragments and scopes to be kept are those that the builder has now
        obtain ⟨c, hc, grown⟩ := inside entered
          (h.putBuilder_self hs.sound b.enterScope.value) b.grows_enterScope careful
        exact ⟨c.leaveScope, hc.leaveScope ended, hb.nest grown⟩
      · obtain ⟨c, hc, grown⟩ := inside entered
          (h.putBuilder_of_ne hs.sound hn d.enterScope.value) hb careful
        exact ⟨c, hc.leaveScope_of_ne ended hn, grown⟩
  | edit n target careful steps =>
    rw [Session.runStep, session_observe]
    split
    · exact ⟨b, h, hb⟩
    · rename_i handle hh
      split
      · exact ⟨b, h, hb⟩
      · rename_i he
        have begun := hs.act (.beginEdit n target)
        simp only [Session.act, hh, if_neg he] at begun
        obtain ⟨c, hc, grown⟩ := inside begun (h.beginEdit hk.1 handle.slot) hb careful
        exact ⟨c, hc.endEdit fun hplace => he (h.edited hs.sound hplace), grown⟩
  | abort =>
    rw [Session.runStep, session_observe]
    exact ⟨b, h, hb⟩
  | _ =>
    simp only [Session.runStep, session_observe]
    exact grows_perform hs hk h hb

/-- The recursion is over the steps, and over those inside them. -/
theorem grows_runSteps (quiet : Bool) (place : Option SlotId) : ∀ {steps : List Step},
    Step.KeepAll name steps → GrowBy quiet name place steps
  | [], _ => by
    intro s b base scopes _ h hb careful
    simp only [Session.runSteps]
    exact ⟨b, h, hb⟩
  | step :: steps, hk => by
    have inside := grows_runSteps quiet place hk.1.inside
    have rest := grows_runSteps quiet place hk.2
    intro s b base scopes hs h hb careful
    obtain ⟨c, hc, grown⟩ := grows_runStep inside hs hk.1 h hb
    simp only [Session.runSteps]
    split
    · exact ⟨c, hc, grown⟩
    · exact rest (hs.runStep quiet step) hc grown careful
termination_by steps => sizeOf steps
decreasing_by
  · exact step.sizeOf_inside steps
  · rw [List.cons.sizeOf_spec]
    omega

/-- **Scopes nest.** Steps that keep a builder run in a scope of it, up to their end, to an error or
to an `abort`. Then the builder has the scopes that it had before and nothing is pending, and what
it had is in the output as it was: that a scope took over its pending element is not seen. Behind
that come fragments that leave nothing open, and last the end tag of the element that was pending,
unless there was none or it is void. -/
theorem nest_keeps_outside {steps : List Step} (hs : s.Reachable) (hb : s.builder? name = some b)
    (hk : Step.KeepAll name steps) (quiet careful : Bool) :
    ∃ c, (s.runStep quiet (.nest name careful steps)).session.builder? name = some c ∧
      c.pending = none ∧ c.depth = b.depth ∧ c.stack.scopes = b.stack.scopes ∧
      c.stack.owed = b.stack.scopes.filterMap Scope.owes ∧
      b.enterScope.value.fragments.toList.map Fragment.written =
        b.fragments.toList.map Fragment.written ∧
      ∃ body, Neutral (ownPieces body) ∧
        c.fragments.toList = b.enterScope.value.fragments.toList ++ body ++
          Builder.endTags (b.pending.bind fun element =>
            if element.kind.isVoid then none else some element.name).toList := by
  obtain ⟨place, h⟩ := exists_has hb
  have entered := hs.act (.perform (.call name .enterScope))
  rw [act_enterScope hb] at entered
  obtain ⟨c, hc, grown⟩ := grows_runSteps quiet place hk entered
    (h.putBuilder_self hs.sound b.enterScope.value) b.grows_enterScope careful
  obtain ⟨stack, body, hf, neutral⟩ := Builder.Grows.leaveScope grown
  have left := hc.leaveScope (entered.runSteps quiet careful steps).sound
  refine ⟨c.leaveScope, ?_, ?_, ?_, ?_, ?_, b.written_enterScope, body, neutral, hf⟩
  · rw [Session.runStep, session_observe, hb]
    exact left.builder?
  · rw [Builder.pending, stack]
  · rw [Builder.depth, stack]
    rfl
  · rw [stack]
  · rw [stack]
    simp [TagStack.owed, TagStack.impliedEnd]

/-- A list item that is pending. -/
def pendingItem : List Action :=
  [.perform (.create "b" none), .perform (.call "b" (.tag "li"))]

/-- Bold text in a scope of its own, and what comes to nothing: attributes when nothing is pending,
a placeholder that is not known, and a step behind an `abort`. -/
def boldSteps : List Step :=
  [.call "b" (.attributes [("id", .literal (.text "x"))]),
    .call "b" (.tag "b"),
    .nest "b" false [.call "b" (.append (.text (.literal "y")))],
    .call "b" (.clear "slot"),
    .abort,
    .call "b" (.tag "i")]

theorem nest_keeps_outside_boldSteps :
    (run {} pendingItem).Reachable ∧ Step.KeepAll "b" boldSteps ∧
    ∃ b c, (run {} pendingItem).builder? "b" = some b ∧
      ((run {} pendingItem).runStep true (.nest "b" false boldSteps)).session.builder? "b" =
        some c ∧
      c.pending = none ∧ c.depth = b.depth ∧
      (c.render {}).value = "<li><b>y</b></li>" := by
  have reached := Reachable.start.run pendingItem
  have keeps : Step.KeepAll "b" boldSteps := by
    simp [Step.KeepAll, Step.Keeps, boldSteps, BuilderCall.Permitted, BuilderCall.KeepsScopes,
      Policy.any, ContentExpr.Spares]
  have hb : (run {} pendingItem).builder? "b" = some
      { name := "E Builder"
        fragments := #[.piece (.startTag { name := "li" })]
        stack := { pending := some ⟨"li", 0⟩ } } := by
    decide +kernel
  obtain ⟨c, hc, pending, depth, _⟩ := nest_keeps_outside reached hb keeps true false
  have shown : ((((run {} pendingItem).runStep true (.nest "b" false boldSteps)).session.builder?
      "b").map fun c => (c.render {}).value) = some "<li><b>y</b></li>" := by
    decide +kernel
  rw [hc] at shown
  exact ⟨reached, keeps, _, c, hb, hc, pending, depth, Option.some_inj.mp shown⟩

end Session

end Hypertext
