import Hypertext.Proofs.Texts.Sessions

/-! # Two runs with other texts

Two runs of actions that differ in nothing but texts lead to sessions that differ in nothing but
texts: both have the same variables, and what was refused in one was refused in the other. -/

namespace Hypertext

/-- The values are the same, unless both are texts. -/
inductive ValueExpr.Alike : ValueExpr → ValueExpr → Prop
  | text (v v' : String) : Alike (.literal (.text v)) (.literal (.text v'))
  | same (e : ValueExpr) : Alike e e

/-- The contents are the same, unless both are texts. -/
inductive ContentExpr.Alike : ContentExpr → ContentExpr → Prop
  | text (t t' : String) : Alike (.text (.literal t)) (.text (.literal t'))
  | same (e : ContentExpr) : Alike e e

/-- The calls are the same, but for what is given to them: `R` relates contents, `Q` the values of
attributes. -/
inductive BuilderCall.Alike {γ α τ : Type} (R : γ → γ → Prop) (Q : α → α → Prop) :
    BuilderCall γ α τ → BuilderCall γ α τ → Prop
  | tag (identifier : String) : Alike R Q (.tag identifier) (.tag identifier)
  | attributes {given given' : List (String × α)}
      (h : List.Forall₂ (fun a a' => a.1 = a'.1 ∧ Q a.2 a'.2) given given') :
      Alike R Q (.attributes given) (.attributes given')
  | content {c c' : γ} (h : R c c') : Alike R Q (.content c) (.content c')
  | contents {cs cs' : List γ} (h : List.Forall₂ R cs cs') :
      Alike R Q (.contents cs) (.contents cs')
  | append {c c' : γ} (h : R c c') : Alike R Q (.append c) (.append c')
  | close : Alike R Q .close .close
  | script (code : String) : Alike R Q (.script code) (.script code)
  | style (rules : String) : Alike R Q (.style rules) (.style rules)
  | comment (text : τ) : Alike R Q (.comment text) (.comment text)
  | enterScope : Alike R Q .enterScope .enterScope
  | place (name : String) : Alike R Q (.place name) (.place name)
  | placeWith (name : String) {c c' : γ} (h : R c c') :
      Alike R Q (.placeWith name c) (.placeWith name c')
  | set (name : String) {c c' : γ} (h : R c c') : Alike R Q (.set name c) (.set name c')
  | clear (name : String) : Alike R Q (.clear name) (.clear name)
  | reset : Alike R Q .reset .reset

inductive HandleCall.Alike {γ : Type} (R : γ → γ → Prop) : HandleCall γ → HandleCall γ → Prop
  | set {c c' : γ} (h : R c c') : Alike R (.set c) (.set c')
  | add {c c' : γ} (h : R c c') : Alike R (.add c) (.add c')
  | clear : Alike R .clear .clear

/-- The steps are the same but for texts. -/
def Step.Alike : Step → Step → Prop
  | .newDocument builder loaded settings, .newDocument builder' loaded' settings' =>
    builder = builder' ∧ Option.Rel DocumentConfig.Alike loaded.toOption loaded'.toOption ∧
      List.Forall₂ (Setting.Alike ValueExpr.Alike) settings settings'
  | .call name c, .call name' c' => name = name' ∧ c.Alike ContentExpr.Alike ValueExpr.Alike c'
  | .handleCall name c, .handleCall name' c' => name = name' ∧ c.Alike ContentExpr.Alike c'
  | step, step' => step = step'

/-- The actions are the same but for texts. -/
inductive Action.Alike : Action → Action → Prop
  | perform {step step' : Step} (h : step.Alike step') : Alike (.perform step) (.perform step')
  | leaveScope (builder : String) : Alike (.leaveScope builder) (.leaveScope builder)
  | beginEdit (handle target : String) : Alike (.beginEdit handle target) (.beginEdit handle target)
  | endEdit (slot : SlotId) : Alike (.endEdit slot) (.endEdit slot)

/-- The contents are the same but for texts. -/
def Content.Alike (c c' : Content) : Prop :=
  c.erase = c'.erase

theorem map_eq_of_forall₂ {α β : Type} {f : α → β} {as bs : List α}
    (h : List.Forall₂ (fun a b => f a = f b) as bs) : as.map f = bs.map f := by
  induction h with
  | nil => rfl
  | cons hab _ ih => rw [List.map_cons, List.map_cons, hab, ih]

/-- What a call may differ in is gone with the texts. -/
theorem BuilderCall.Alike.erase_eq {c c' : BuilderCall Content AttributeValue String}
    (h : c.Alike Content.Alike AttributeValue.Alike c') : c.erase = c'.erase := by
  cases h with
  | attributes h =>
    exact congrArg BuilderCall.attributes
      (map_eq_of_forall₂ (h.imp fun _ _ ha => Prod.ext ha.1 ha.2))
  | contents h => exact congrArg BuilderCall.contents (map_eq_of_forall₂ h)
  | content h => exact congrArg BuilderCall.content h
  | append h => exact congrArg BuilderCall.append h
  | placeWith name h => exact congrArg (BuilderCall.placeWith name) h
  | set name h => exact congrArg (BuilderCall.set name) h
  | _ => rfl

theorem HandleCall.Alike.erase_eq {c c' : HandleCall Content} (h : c.Alike Content.Alike c') :
    c.erase = c'.erase := by
  cases h with
  | set h => exact congrArg HandleCall.set h
  | add h => exact congrArg HandleCall.add h
  | clear => rfl

/-! ## Evaluations -/

namespace Eval

variable {s s' : Session}

theorem together_builder (name : String) (hs : s.Alike s') :
    Together (fun b b' => b.erase = b'.erase) (builder name) (builder name) s s' :=
  (together_get hs).andThen fun _ _ _ _ ht hu => together_ofOption (ht.builder? name) hu

theorem together_handle (name : String) (hs : s.Alike s') :
    Together Eq (handle name) (handle name) s s' := by
  refine (together_get hs).andThen fun t t' _ _ ht hu => together_ofOption ?_ hu
  rw [ht.handles]
  exact rel_refl (fun _ => rfl) _

theorem together_registry (name : String) (hs : s.Alike s') :
    Together Eq (registry name) (registry name) s s' := by
  refine (together_get hs).andThen fun t t' _ _ ht hu => together_ofOption ?_ hu
  rw [ht.registries]
  exact rel_refl (fun _ => rfl) _

theorem together_takeBuilder (name : String) (hs : s.Alike s') :
    Together (fun b b' => b.erase = b'.erase) (takeBuilder name) (takeBuilder name) s s' := by
  refine (together_get hs).andThen ?_
  intro t t' u u' ht hu
  have found := ht.find? name
  revert found
  cases t.builders.find? name <;> cases t'.builders.find? name <;> intro found <;> cases found
  · exact together_failure
  · rename_i site site' same
    cases site <;> cases site' <;> simp only [Site.erase, Site.own.injEq, reduceCtorEq] at same
    · refine (together_modify (hu.removing name)).andThen ?_
      intro _ _ _ _ _ hv
      exact together_pure same hv
    · exact together_failure

theorem together_rendering (source : Source) (hs : s.Alike s') :
    Together (fun _ _ => True) (rendering source) (rendering source) s s' := by
  cases source with
  | builder name =>
    exact (together_builder name hs).andThen fun _ _ _ _ _ hu =>
      (together_get hu).andThen fun _ _ _ _ _ hv => together_ofLogged trivial hv
  | handle name =>
    exact (together_handle name hs).andThen fun _ _ _ _ _ hu =>
      (together_get hu).andThen fun _ _ _ _ _ hv => together_ofLogged trivial hv

theorem together_value {e e' : ValueExpr} (he : e.Alike e') (hs : s.Alike s') :
    Together AttributeValue.Alike (value e) (value e') s s' := by
  cases he with
  | text v v' => exact together_pure rfl hs
  | same e =>
    cases e with
    | literal v => exact together_pure rfl hs
    | rendering source => exact (together_rendering source hs).map fun _ _ _ => rfl

theorem together_content {e e' : ContentExpr} (he : e.Alike e') (hp : e.Permitted .plain)
    (hs : s.Alike s') : Together Content.Alike (content e) (content e') s s' := by
  cases he with
  | text t t' => exact together_pure rfl hs
  | same e =>
    cases e with
    | empty => exact together_pure rfl hs
    | text e =>
      cases e with
      | literal t => exact together_pure rfl hs
      | rendering source => exact (together_rendering source hs).map fun _ _ _ => rfl
    | markup e =>
      cases e with
      | literal html => exact together_pure rfl hs
      | rendering source => exact absurd (hp "") Policy.plain_not_empty
    | copy name =>
      refine (together_builder name hs).andThen fun b b' _ _ hb hu => together_pure ?_ hu
      rw [Content.Alike, Content.erase, Content.erase, Builder.erase_snapshot, hb,
        Builder.erase_snapshot]
    | move name =>
      refine (together_takeBuilder name hs).map ?_
      intro b b' hb
      rw [Content.Alike, Content.erase, Content.erase, hb]
    | handle name => exact (together_handle name hs).map fun h h' hh => by rw [hh]; rfl

theorem together_setting {e e' : Setting ValueExpr} (he : e.Alike ValueExpr.Alike e')
    (hs : s.Alike s') :
    Together (Setting.Alike AttributeValue.Alike) (setting e) (setting e') s s' := by
  cases he with
  | title t t' => exact together_pure (.title t t') hs
  | lang l l' => exact together_pure (.lang l l') hs
  | htmlAttribute identifier hv =>
    exact (together_value hv hs).map fun _ _ hv => .htmlAttribute identifier hv
  | viewport enabled => exact together_pure (.viewport enabled) hs
  | viewportContent v v' => exact together_pure (.viewportContent v v') hs
  | url hu => exact together_pure (.url hu) hs

theorem together_attribute {a a' : String × ValueExpr} (ha : a.1 = a'.1 ∧ a.2.Alike a'.2)
    (hs : s.Alike s') :
    Together (fun b b' => b.1 = b'.1 ∧ b.2.Alike b'.2)
      ((a.1, ·) <$> value a.2) ((a'.1, ·) <$> value a'.2) s s' :=
  (together_value ha.2 hs).map fun _ _ hv => ⟨ha.1, hv⟩

theorem together_builderCall {e e' : BuilderCall ContentExpr ValueExpr TextExpr}
    (he : e.Alike ContentExpr.Alike ValueExpr.Alike e')
    (hp : e.Permitted .plain (ContentExpr.Permitted .plain)
      (TextExpr.Permitted Policy.plain.comments))
    (hs : s.Alike s') :
    Together (BuilderCall.Alike Content.Alike AttributeValue.Alike) (builderCall e)
      (builderCall e') s s' := by
  cases he with
  | attributes h =>
    have evaluated := together_mapM h (fun a _ a' _ ha u u' hu => together_attribute ha hu) hs
    exact evaluated.map fun _ _ has => .attributes has
  | content hc => exact (together_content hc hp hs).map fun _ _ hc => .content hc
  | contents hcs =>
    have evaluated :=
      together_mapM hcs (fun e he _ _ hc u u' hu => together_content hc (hp e he) hu) hs
    exact evaluated.map fun _ _ hcs => .contents hcs
  | append hc => exact (together_content hc hp hs).map fun _ _ hc => .append hc
  | placeWith name hc => exact (together_content hc hp hs).map fun _ _ hc => .placeWith name hc
  | set name hc => exact (together_content hc hp hs).map fun _ _ hc => .set name hc
  | tag identifier => exact together_pure (.tag identifier) hs
  | close => exact together_pure .close hs
  | script code => exact together_pure (.script code) hs
  | style rules => exact together_pure (.style rules) hs
  | comment text =>
    cases text with
    | literal text => exact absurd hp (Policy.plain_not_comments text)
    | rendering source => exact absurd (hp "") (Policy.plain_not_comments "")
  | enterScope => exact together_pure .enterScope hs
  | place name => exact together_pure (.place name) hs
  | clear name => exact together_pure (.clear name) hs
  | reset => exact together_pure .reset hs

theorem together_handleCall {e e' : HandleCall ContentExpr} (he : e.Alike ContentExpr.Alike e')
    (hp : e.Permitted (ContentExpr.Permitted .plain)) (hs : s.Alike s') :
    Together (HandleCall.Alike Content.Alike) (handleCall e) (handleCall e') s s' := by
  cases he with
  | set hc => exact (together_content hc hp hs).map fun _ _ hc => .set hc
  | add hc => exact (together_content hc hp hs).map fun _ _ hc => .add hc
  | clear => exact together_pure .clear hs

theorem together_complete {o o' : Outcome Session} (ho : o.state.Alike o'.state)
    (hr : o.refusal = o'.refusal) (hs : s.Alike s') :
    Together (fun _ _ => True) (complete o) (complete o') s s' := by
  have logged : Together (fun _ _ => True) (ofLogged ⟨(), o.log⟩) (ofLogged ⟨(), o'.log⟩) s s' :=
    together_ofLogged trivial hs
  refine logged.andThen ?_
  intro _ _ _ _ _ _
  refine (together_set ho).andThen ?_
  intro _ _ _ _ _ hu
  rw [hr]
  split
  · exact together_pure trivial hu
  · exact together_pure trivial hu

theorem together_newDocument {loaded loaded' : Except ConfigError DocumentConfig}
    {settings settings' : List (Setting ValueExpr)}
    (hc : Option.Rel DocumentConfig.Alike loaded.toOption loaded'.toOption)
    (he : List.Forall₂ (Setting.Alike ValueExpr.Alike) settings settings') (builder : String)
    (hs : s.Alike s') :
    Together (fun _ _ => True) (newDocument builder loaded settings)
      (newDocument builder loaded' settings') s s' := by
  have evaluated := together_mapM he (fun e _ e' _ h u u' hu => together_setting h hu) hs
  refine evaluated.andThen ?_
  intro v v' u u' hv hu
  cases loaded <;> cases loaded' <;> cases hc
  · exact together_pure trivial hu
  · rename_i config config' hc
    have made := document_alike (hc.applyAll hv)
    revert made
    simp only
    cases document (v.foldl DocumentConfig.apply config) <;>
      cases document (v'.foldl DocumentConfig.apply config') <;> intro made <;> cases made
    · exact together_pure trivial hu
    · rename_i doc doc' hdoc
      have logged : Together (fun b b' => b.erase = b'.erase) (ofLogged doc) (ofLogged doc') u u' :=
        together_ofLogged hdoc hu
      refine logged.andThen ?_
      intro b b' w w' hb hw
      exact together_modify_pure (hw.putBuilder hb builder) _ _

/-- The same registry gets the same placeholder in stores that are the same but for texts. -/
theorem declare_alike {st st' : Store} (h : st.erase = st'.erase) (r : Registry) (name : String) :
    Option.Rel (fun d d' => d.handle = d'.handle ∧ d.registry = d'.registry ∧
        d.store.erase = d'.store.erase)
      (r.declare name st).toOption (r.declare name st').toOption := by
  have same := r.declare_erase name st
  rw [h, r.declare_erase name st'] at same
  revert same
  cases r.declare name st <;> cases r.declare name st' <;> intro same
  · exact .none
  · cases same
  · cases same
  · rename_i d d'
    simp only [Except.map, Except.ok.injEq, Declared.mk.injEq] at same
    exact .some ⟨same.1.symm, same.2.1.symm, same.2.2.symm⟩

theorem together_registryStep (name : String) (step : RegistryStep) (hs : s.Alike s') :
    Together (fun _ _ => True) (registryStep name step) (registryStep name step) s s' := by
  cases step with
  | create =>
    exact together_modify_pure (hs.bindRegistry name {}) _ _
  | declare placeholder target =>
    refine (together_registry name hs).andThen_eq ?_
    intro r u u' hu
    refine (together_get hu).andThen ?_
    intro t t' v v' ht hv
    have declared := declare_alike ht.store r placeholder
    revert declared
    cases r.declare placeholder t.store <;> cases r.declare placeholder t'.store <;>
      intro declared <;> cases declared
    · exact together_pure trivial hv
    · rename_i d d' h
      obtain ⟨hh, hr, hst⟩ := h
      have bound : (({ v with store := d.store } : Session).bindRegistry name d.registry).Alike
          (({ v' with store := d'.store } : Session).bindRegistry name d'.registry) := by
        rw [← hr]
        exact (hv.withStore hst).bindRegistry name d.registry
      refine (together_modify bound).andThen ?_
      intro _ _ w w' _ hw
      cases target with
      | none => exact together_pure trivial hw
      | some handle =>
        have handed := hw.bindHandle handle d.handle
        exact together_modify_pure (hh ▸ handed) _ _
  | adopt handleName =>
    refine (together_handle handleName hs).andThen_eq ?_
    intro h u u' hu
    refine (together_registry name hu).andThen_eq ?_
    intro r v v' hv
    refine (together_ofLogged rfl hv).andThen_eq ?_
    intro a w w' hw
    exact together_modify_pure (hw.bindRegistry name a) _ _
  | merge other =>
    refine (together_registry other hs).andThen_eq ?_
    intro o u u' hu
    refine (together_registry name hu).andThen_eq ?_
    intro r v v' hv
    refine (together_ofLogged rfl hv).andThen_eq ?_
    intro a w w' hw
    exact together_modify_pure (hw.bindRegistry name a) _ _
  | find placeholder target =>
    refine (together_registry name hs).andThen_eq ?_
    intro r u u' hu
    simp only
    cases r.find? placeholder with
    | none => exact together_pure trivial hu
    | some h =>
      exact together_modify_pure (hu.bindHandle target h) _ _
  | contains placeholder =>
    exact (together_registry name hs).andThen fun _ _ _ _ _ hu => together_pure trivial hu
  | clear =>
    have found : Together (fun _ _ => True) (discard (registry name)) (discard (registry name))
        s s' := by
      rw [discard_eq_map]
      exact (together_registry name hs).map fun _ _ _ => trivial
    exact found.andThen fun _ _ _ _ _ hu =>
      together_modify_pure (hu.bindRegistry name {}) _ _
  | look =>
    exact (together_registry name hs).andThen fun _ _ _ _ _ hu => together_pure trivial hu

theorem together_callBuilder {b b' : Builder} {c c' : BuilderCall Content AttributeValue String}
    (h : c.Alike Content.Alike AttributeValue.Alike c') (hc : c.Made .plain)
    (hc' : c'.Made .plain) (hb : b.erase = b'.erase) (hbm : b.Made .plain)
    (hbm' : b'.Made .plain) (hs : s.Alike s') (hm : s.Made .plain) (hm' : s'.Made .plain)
    (name : String) :
    Together (fun _ _ => True) (complete (s.callBuilder name b c))
      (complete (s'.callBuilder name b' c')) s s' := by
  have erased := BuilderCall.erase_run hc hbm hm.store
  have erased' := BuilderCall.erase_run hc' hbm' hm'.store
  rw [h.erase_eq, hb, hs.store] at erased
  have state := erased.state.trans erased'.state.symm
  refine together_complete ?_ (erased.refusal.trans erased'.refusal.symm) hs
  exact (hs.withStore (congrArg Prod.snd state)).putBuilder (congrArg Prod.fst state) name

theorem together_callHandle {c c' : HandleCall Content} (h : c.Alike Content.Alike c')
    (hs : s.Alike s') (hm : s.Made .plain) (hm' : s'.Made .plain) (handle : Handle) :
    Together (fun _ _ => True) (complete (s.callHandle handle c))
      (complete (s'.callHandle handle c')) s s' := by
  have erased := HandleCall.erase_run hm.store handle c
  have erased' := HandleCall.erase_run hm'.store handle c'
  rw [h.erase_eq, hs.store] at erased
  exact together_complete (hs.withStore (erased.state.trans erased'.state.symm))
    (erased.refusal.trans erased'.refusal.symm) hs

/-- Steps that differ in nothing but texts come to sessions that differ in nothing but texts. -/
theorem together_step {step step' : Step} (h : step.Alike step') (hp : step.Permitted .plain)
    (hp' : step'.Permitted .plain) (hs : s.Alike s') (hm : s.Made .plain) (hm' : s'.Made .plain) :
    Together (fun _ _ => True) (Eval.step step) (Eval.step step') s s' := by
  unfold Step.Alike at h
  split at h
  · obtain ⟨rfl, hconfig, hsettings⟩ := h
    exact together_newDocument hconfig hsettings _ hs
  · obtain ⟨rfl, hcall⟩ := h
    refine (together_builderCall hcall hp hs).bind ?_
    intro c c' u u' hc hc' hcc hu
    obtain ⟨hcm, hum⟩ := made_builderCall hp hm hc
    obtain ⟨hcm', hum'⟩ := made_builderCall hp' hm' hc'
    refine (together_get hu).bind ?_
    intro t t' v v' ht ht' _ hv
    obtain ⟨rfl, rfl⟩ := returns_get.mp ht
    obtain ⟨rfl, rfl⟩ := returns_get.mp ht'
    refine (together_builder _ hv).bind ?_
    intro b b' w w' hb hb' hbb hw
    obtain ⟨hb, rfl⟩ := returns_builder.mp hb
    obtain ⟨hb', rfl⟩ := returns_builder.mp hb'
    exact together_callBuilder hcc hcm hcm' hbb (hum.builder? hb) (hum'.builder? hb') hw hum hum' _
  · obtain ⟨rfl, hcall⟩ := h
    refine (together_handleCall hcall hp hs).bind ?_
    intro c c' u u' hc hc' hcc hu
    obtain ⟨_, hum⟩ := made_handleCall hp hm hc
    obtain ⟨_, hum'⟩ := made_handleCall hp' hm' hc'
    refine (together_get hu).bind ?_
    intro t t' v v' ht ht' _ hv
    obtain ⟨rfl, rfl⟩ := returns_get.mp ht
    obtain ⟨rfl, rfl⟩ := returns_get.mp ht'
    refine (together_handle _ hv).bind ?_
    intro handle _ w w' hh hh' hhh hw
    subst hhh
    obtain ⟨_, rfl⟩ := returns_handle.mp hh
    obtain ⟨_, rfl⟩ := returns_handle.mp hh'
    exact together_callHandle hcc hw hum hum' handle
  · rename_i hdocument hcall hhandle
    subst h
    cases step with
    | newDocument builder loaded settings => exact absurd rfl (hdocument _ _ _ _ _ _ rfl)
    | call name c => exact absurd rfl (hcall _ _ _ _ rfl)
    | handleCall name c => exact absurd rfl (hhandle _ _ _ _ rfl)
    | create name given =>
      exact together_modify_pure (hs.putBuilder rfl name) _ _
    | placeholder name placeholder target =>
      refine (together_builder name hs).andThen ?_
      intro b b' u u' hb hu
      rw [← b.placeholder_erase, hb, b'.placeholder_erase]
      split
      · exact together_pure trivial hu
      · rename_i h _
        exact together_modify_pure (hu.bindHandle target h) _ _
    | share name target =>
      refine (together_takeBuilder name hs).andThen ?_
      intro b b' u u' hb hu
      exact together_modify_pure (hu.share hb target) _ _
    | look name look =>
      refine (together_builder name hs).andThen ?_
      intro _ _ _ _ _ hu
      exact (together_get hu).andThen fun _ _ _ _ _ hv => together_ofLogged trivial hv
    | copyHandle name target =>
      refine (together_handle name hs).andThen_eq ?_
      intro handle u u' hu
      exact together_modify_pure (hu.bindHandle target handle) _ _
    | sameSlot name other =>
      refine (together_handle name hs).andThen ?_
      intro _ _ _ _ _ hu
      exact (together_handle other hu).andThen fun _ _ _ _ _ hv => together_pure trivial hv
    | lookHandle name look =>
      refine (together_handle name hs).andThen ?_
      intro _ _ _ _ _ hu
      exact (together_get hu).andThen fun _ _ _ _ _ hv => together_ofLogged trivial hv
    | registry name step => exact together_registryStep name step hs
    | nest | edit | abort => exact together_failure

end Eval

/-! ## Runs -/

namespace Session.Alike

variable {s s' : Session}

theorem act {a a' : Action} (h : a.Alike a') (hp : a.Permitted .plain) (hp' : a'.Permitted .plain)
    (hs : s.Alike s') (hm : s.Made .plain) (hm' : s'.Made .plain) :
    (s.act a).Alike (s'.act a') := by
  cases h with
  | @perform step step' h =>
    have together := Eval.together_step h hp hp' hs hm hm'
    unfold Eval.Together at together
    simp only [Session.act, session_perform_eq]
    revert together
    cases (Eval.step step).result s <;> cases (Eval.step step').result s' <;>
      intro together <;> cases together
    · exact hs
    · rename_i h
      exact h.2
  | leaveScope name =>
    simp only [Session.act, Alike, erase_leaveScope]
    rw [show s.erase = s'.erase from hs]
  | beginEdit name target =>
    simp only [Session.act, hs.handles]
    split
    · rename_i handle _
      have edited : s.store.isEdited handle.slot = s'.store.isEdited handle.slot := by
        rw [← Store.isEdited_erase, hs.store, Store.isEdited_erase]
      rw [edited]
      split
      · exact hs
      · rw [Alike, erase_beginEdit, erase_beginEdit, hs]
    · exact hs
  | endEdit i =>
    simp only [Session.act, Alike, erase_endEdit]
    rw [show s.erase = s'.erase from hs]

/-- Two runs that differ in nothing but texts lead to sessions that differ in nothing else. -/
theorem run {actions actions' : List Action} (h : List.Forall₂ Action.Alike actions actions')
    (hp : ∀ a ∈ actions, a.Permitted .plain) (hp' : ∀ a ∈ actions', a.Permitted .plain)
    (hs : s.Alike s') (hm : s.Made .plain) (hm' : s'.Made .plain) :
    (s.run actions).Alike (s'.run actions') := by
  induction h generalizing s s' with
  | nil => exact hs
  | cons h _ ih =>
    obtain ⟨ha, hp⟩ := List.forall_mem_cons.mp hp
    obtain ⟨ha', hp'⟩ := List.forall_mem_cons.mp hp'
    exact ih hp hp' (hs.act h ha ha' hm hm') (hm.act ha) (hm'.act ha')

end Session.Alike

end Hypertext
