import Hypertext.Proofs.Session.Actions
import Hypertext.Proofs.Slots.Scoped

/-! # What a step changes

A step that has no steps of its own puts a builder somewhere, calls a builder or a handle, makes a
slot, or does no more than bind what is at hand to names. `Session.Change` has a case for each, so
what holds of all sessions is proved by cases on the change. -/

namespace Hypertext

/-! ## Variables with builders of their own -/

theorem Bindings.mem_insert_own {v : Bindings Site} {name n : String} {b c : Builder}
    (h : (n, Site.own c) ∈ (v.insert name (.own b)).entries) :
    c = b ∨ (n, Site.own c) ∈ v.entries := by
  rcases List.mem_cons.mp h with h | h
  · cases h
    exact .inl rfl
  · exact .inr (List.mem_of_mem_eraseP h)

theorem Bindings.mem_push_slot {v : Bindings Site} {name n : String} {i : SlotId} {c : Builder}
    (h : (n, Site.own c) ∈ (v.push name (.slot i)).entries) : (n, Site.own c) ∈ v.entries := by
  rcases List.mem_cons.mp h with h | h
  · cases h
  · exact h

/-! ## Changes -/

namespace Session

/-- Some builders may have been moved out of their variables. -/
structure Sheds (s u : Session) : Prop where
  store : u.store = s.store
  handles : u.handles = s.handles
  registries : u.registries = s.registries
  builders : u.builders.entries.Sublist s.builders.entries

namespace Sheds

variable {s t u : Session}

theorem refl (s : Session) : s.Sheds s :=
  ⟨rfl, rfl, rfl, .refl _⟩

theorem erase (h : s.Sheds u) (name : String) :
    s.Sheds { u with builders := u.builders.erase name } :=
  ⟨h.store, h.handles, h.registries, (List.eraseP_sublist).trans h.builders⟩

theorem builderAt (h : s.Sheds u) (site : Site) : u.builderAt site = s.builderAt site := by
  cases site with
  | own b => rfl
  | slot i => simp only [Session.builderAt, h.store]

end Sheds

/-- The content is what a variable of the session stands for, or it brings no builder or handle. -/
def Supplies (s : Session) : Content → Prop
  | .slot h => ∃ name, s.handles.find? name = some h
  | .snippet b => ∃ name site, (name, site) ∈ s.builders.entries ∧
      (b = s.builderAt site ∨ b = (s.builderAt site).snapshot)
  | .empty | .text _ | .markup _ => True

/-- The session can tell the handle by a variable, a registry or a builder. -/
def Knows (s : Session) (h : Handle) : Prop :=
  (∃ name, s.handles.find? name = some h) ∨
  (∃ name r, s.registries.find? name = some r ∧ h ∈ r.handles) ∨
  ∃ name b, s.builder? name = some b ∧ h ∈ b.placeholders.handles

/-- Of the handles and registries in the variables of `t`, all are from `s`, or have the property.
-/
structure Binds (s t : Session) (new : Handle → Prop) : Prop where
  handles : ∀ e ∈ t.handles.entries, e ∈ s.handles.entries ∨ new e.2
  registries : ∀ e ∈ t.registries.entries, e ∈ s.registries.entries ∨ ∀ h ∈ e.2.handles, new h

namespace Binds

variable {s : Session} {new : Handle → Prop} {name : String}

theorem refl (s : Session) : s.Binds s new :=
  ⟨fun _ he => .inl he, fun _ he => .inl he⟩

theorem setStore (s : Session) (st : Store) : s.Binds { s with store := st } new :=
  ⟨fun _ he => .inl he, fun _ he => .inl he⟩

theorem bindHandle {t : Session} {h : Handle} (hb : s.Binds t new) (hh : new h) (name : String) :
    s.Binds (t.bindHandle name h) new where
  handles e he := by
    rcases List.mem_cons.mp he with rfl | he
    · exact .inr hh
    · exact hb.handles e (List.mem_of_mem_eraseP he)
  registries := hb.registries

theorem bindRegistry {t : Session} {r : Registry} (hb : s.Binds t new)
    (hr : ∀ h ∈ r.handles, new h) (name : String) : s.Binds (t.bindRegistry name r) new where
  handles := hb.handles
  registries e he := by
    rcases List.mem_cons.mp he with rfl | he
    · exact .inr hr
    · exact hb.registries e (List.mem_of_mem_eraseP he)

end Binds

/-- What a step without steps of its own may leave of a session. -/
inductive Change (s : Session) : Step → Session → Prop
  | create (name : String) (given : Option String) :
      Change s (.create name given) (s.putBuilder name { name := given.getD "E Builder" })
  | document {name : String} {loaded : Except ConfigError DocumentConfig}
      {settings : List (Setting ValueExpr)} {config : DocumentConfig} {doc : Logged Builder}
      (hd : document config = .ok doc) :
      Change s (.newDocument name loaded settings) (s.putBuilder name doc.value)
  | call {name : String} {e : BuilderCall ContentExpr ValueExpr TextExpr}
      {call : BuilderCall Content AttributeValue String} {u : Session} {b : Builder}
      (he : (Eval.builderCall e).Returns s call u) (hb : u.builder? name = some b) :
      Change s (.call name e) (u.callBuilder name b call).state
  | share {name : String} {target : String} {b : Builder}
      (hb : s.builders.find? name = some (.own b)) :
      Change s (.share name target)
        (({ s with builders := s.builders.erase name } : Session).share b target)
  | handleCall {name : String} {e : HandleCall ContentExpr} {call : HandleCall Content}
      {u : Session} {h : Handle} (he : (Eval.handleCall e).Returns s call u)
      (hh : u.handles.find? name = some h) :
      Change s (.handleCall name e) (u.callHandle h call).state
  | declare {name placeholder : String} {target : Option String} {r : Registry} {d : Declared}
      {t : Session} (hr : s.registries.find? name = some r)
      (hd : r.declare placeholder s.store = .ok d) (hst : t.store = d.store)
      (hb : t.builders = s.builders) (hn : s.Binds t fun h => h = d.handle ∨ h ∈ r.handles) :
      Change s (.registry name (.declare placeholder target)) t
  | bind {step : Step} {t : Session} (hst : t.store = s.store) (hb : t.builders = s.builders)
      (hn : s.Binds t s.Knows) : Change s step t

end Session

/-! ## Evaluations -/

namespace Eval

open Session (Sheds Change)

variable {s t u : Session}

theorem supplies_content {e : ContentExpr} {c : Content} (hs : s.Sheds u)
    (h : (content e).Returns u c t) : s.Supplies c ∧ s.Sheds t := by
  cases e with
  | empty =>
    obtain ⟨rfl, rfl⟩ := returns_pure.mp h
    exact ⟨trivial, hs⟩
  | text e | markup e =>
    obtain ⟨text, hr, rfl⟩ := returns_map.mp h
    rw [returns_text hr]
    exact ⟨trivial, hs⟩
  | copy name =>
    obtain ⟨b, _, hb, hr⟩ := returns_bind.mp h
    obtain ⟨hb, rfl⟩ := returns_builder.mp hb
    obtain ⟨rfl, rfl⟩ := returns_pure.mp hr
    obtain ⟨site, hf, rfl⟩ := Option.map_eq_some_iff.mp hb
    rw [hs.builderAt]
    exact ⟨⟨name, site, hs.builders.mem (Bindings.mem_of_find?_eq_some hf), .inr rfl⟩, hs⟩
  | move name =>
    obtain ⟨b, hr, rfl⟩ := returns_map.mp h
    obtain ⟨hf, rfl⟩ := returns_takeBuilder.mp hr
    exact ⟨⟨name, .own b, hs.builders.mem (Bindings.mem_of_find?_eq_some hf), .inl rfl⟩,
      hs.erase name⟩
  | handle name =>
    obtain ⟨handle, hr, rfl⟩ := returns_map.mp h
    obtain ⟨hf, rfl⟩ := returns_handle.mp hr
    rw [hs.handles] at hf
    exact ⟨⟨name, hf⟩, hs⟩

/-- What every evaluation of a content keeps and returns, and what the texts are, the evaluation of a
call keeps and returns. -/
theorem permitted_builderCall {I : Session → Prop} {P : Policy} {p : ContentExpr → Prop}
    {q : TextExpr → Prop} {Q : Content → Prop} {R : String → Prop}
    (contents : ∀ e, p e → ∀ s c t, I s → (content e).Returns s c t → Q c ∧ I t)
    (texts : ∀ e, q e → ∀ s r t, (text e).Returns s r t → R r)
    {e : BuilderCall ContentExpr ValueExpr TextExpr}
    {call : BuilderCall Content AttributeValue String} (he : e.Permitted P p q) (hs : I s)
    (h : (builderCall e).Returns s call t) : call.Permitted P Q R ∧ I t := by
  cases e with
  | attributes given =>
    obtain ⟨given', hr, rfl⟩ := returns_map.mp h
    refine returns_mapM ?_ hs hr
    intro a ha u b v hu hb
    obtain ⟨value, hv, rfl⟩ := returns_map.mp hb
    rw [returns_value hv]
    exact ⟨he a ha, hu⟩
  | content e | append e | placeWith _ e | set _ e =>
    obtain ⟨c, hr, rfl⟩ := returns_map.mp h
    exact contents e he s c t hs hr
  | contents es =>
    obtain ⟨cs, hr, rfl⟩ := returns_map.mp h
    exact returns_mapM (fun e hm => contents e (he e hm)) hs hr
  | comment e =>
    obtain ⟨r, hr, rfl⟩ := returns_map.mp h
    have permitted : R r := texts e he s r t hr
    rw [returns_text hr]
    exact ⟨permitted, hs⟩
  | _ =>
    obtain ⟨rfl, rfl⟩ := returns_pure.mp h
    exact ⟨he, hs⟩

theorem permitted_handleCall {I : Session → Prop} {p : ContentExpr → Prop} {Q : Content → Prop}
    (contents : ∀ e, p e → ∀ s c t, I s → (content e).Returns s c t → Q c ∧ I t)
    {e : HandleCall ContentExpr} {call : HandleCall Content} (he : e.Permitted p) (hs : I s)
    (h : (handleCall e).Returns s call t) : call.Permitted Q ∧ I t := by
  cases e with
  | set e | add e =>
    obtain ⟨c, hr, rfl⟩ := returns_map.mp h
    exact contents e he s c t hs hr
  | clear =>
    obtain ⟨rfl, rfl⟩ := returns_pure.mp h
    exact ⟨trivial, hs⟩

theorem supplies_builderCall {e : BuilderCall ContentExpr ValueExpr TextExpr}
    {call : BuilderCall Content AttributeValue String} (h : (builderCall e).Returns s call t) :
    call.Brings s.Supplies ∧ s.Sheds t :=
  permitted_builderCall (p := fun _ => True) (q := fun _ => True)
    (fun _ _ _ _ _ hu hc => supplies_content hu hc) (fun _ _ _ _ _ _ => trivial)
    (e.permitted_of_forall (fun _ => trivial) fun _ => trivial) (.refl s) h

theorem supplies_handleCall {e : HandleCall ContentExpr} {call : HandleCall Content}
    (h : (handleCall e).Returns s call t) : call.Permitted s.Supplies ∧ s.Sheds t :=
  permitted_handleCall (p := fun _ => True) (fun _ _ _ _ _ hu hc => supplies_content hu hc)
    (e.permitted_of_forall fun _ => trivial) (.refl s) h

theorem returns_complete {o : Outcome Session} {a : Answer}
    (h : (complete o).Returns s a t) : t = o.state := by
  simp only [complete, returns_bind, returns_ofLogged, returns_set] at h
  obtain ⟨_, _, _, _, _, rfl, h⟩ := h
  split at h
  · exact (returns_pure.mp h).2
  · exact (returns_pure.mp h).2

/-! ## Steps -/

theorem change_newDocument {name : String} {loaded : Except ConfigError DocumentConfig}
    {settings : List (Setting ValueExpr)} {a : Answer}
    (hr : (newDocument name loaded settings).Returns s a t) :
    s.Change (.newDocument name loaded settings) t := by
  obtain ⟨changes, u, hm, h⟩ := returns_bind.mp hr
  obtain rfl := returns_settings hm
  split at h
  · rw [(returns_pure.mp h).2]
    exact .bind rfl rfl (.refl _)
  · split at h
    · rw [(returns_pure.mp h).2]
      exact .bind rfl rfl (.refl _)
    · rename_i doc hdoc
      simp only [returns_bind, returns_ofLogged, returns_modify, returns_pure] at h
      obtain ⟨_, _, ⟨rfl, rfl⟩, _, _, rfl, _, rfl⟩ := h
      exact .document hdoc

theorem change_registryStep {name : String} {step : RegistryStep} {a : Answer}
    (h : (registryStep name step).Returns s a t) : s.Change (.registry name step) t := by
  cases step with
  | declare placeholder target =>
    simp only [registryStep, returns_bind, returns_registry, returns_get] at h
    obtain ⟨r, _, ⟨hr, rfl⟩, _, _, ⟨rfl, rfl⟩, h⟩ := h
    split at h
    · rw [(returns_pure.mp h).2]
      exact .bind rfl rfl (.refl _)
    · rename_i d hd
      have filed : ∀ h ∈ d.registry.handles, h = d.handle ∨ h ∈ r.handles := by
        rw [(Registry.declare_eq hd).2.1]
        exact fun h => Registry.mem_handles_insert
      cases target with
      | none =>
        simp only [returns_bind, returns_modify, returns_pure] at h
        obtain ⟨_, _, rfl, _, _, ⟨_, rfl⟩, _, rfl⟩ := h
        exact .declare hr hd rfl rfl ((Session.Binds.setStore _ _).bindRegistry filed name)
      | some v =>
        simp only [returns_bind, returns_modify, returns_pure] at h
        obtain ⟨_, _, rfl, _, _, rfl, _, rfl⟩ := h
        exact .declare hr hd rfl rfl
          (((Session.Binds.setStore _ _).bindRegistry filed name).bindHandle (.inl rfl) v)
  | adopt handle =>
    simp only [registryStep, returns_bind, returns_registry, returns_handle, returns_ofLogged,
      returns_modify, returns_pure] at h
    obtain ⟨g, _, ⟨hg, rfl⟩, r, _, ⟨hr, rfl⟩, _, _, ⟨rfl, rfl⟩, _, _, rfl, _, rfl⟩ := h
    refine .bind rfl rfl (.bindRegistry (.refl _) ?_ name)
    intro h hh
    rcases Registry.mem_handles_adopt hh with rfl | hh
    · exact .inl ⟨handle, hg⟩
    · exact .inr (.inl ⟨name, r, hr, hh⟩)
  | merge other =>
    simp only [registryStep, returns_bind, returns_registry, returns_ofLogged, returns_modify,
      returns_pure] at h
    obtain ⟨o, _, ⟨ho, rfl⟩, r, _, ⟨hr, rfl⟩, _, _, ⟨rfl, rfl⟩, _, _, rfl, _, rfl⟩ := h
    refine .bind rfl rfl (.bindRegistry (.refl _) ?_ name)
    intro h hh
    rcases Registry.mem_handles_merge hh with hh | hh
    · exact .inr (.inl ⟨name, r, hr, hh⟩)
    · exact .inr (.inl ⟨other, o, ho, hh⟩)
  | find placeholder target =>
    simp only [registryStep, returns_bind, returns_registry] at h
    obtain ⟨r, _, ⟨hr, rfl⟩, h⟩ := h
    cases hf : r.find? placeholder with
    | none =>
      simp only [hf, returns_pure] at h
      obtain ⟨_, _, ⟨_, rfl⟩, _, rfl⟩ := h
      exact .bind rfl rfl (.refl _)
    | some found =>
      simp only [hf, returns_bind, returns_modify, returns_pure] at h
      obtain ⟨_, _, rfl, _, rfl⟩ := h
      refine .bind rfl rfl (.bindHandle (.refl _) ?_ target)
      exact .inr (.inl ⟨name, r, hr, Registry.mem_handles_of_find? hf⟩)
  | create =>
    simp only [registryStep, returns_bind, returns_modify, returns_pure] at h
    obtain ⟨_, _, rfl, _, rfl⟩ := h
    exact .bind rfl rfl (.bindRegistry (.refl _) (List.forall_mem_nil _) name)
  | clear =>
    simp only [registryStep, returns_bind, returns_discard, returns_registry, returns_modify,
      returns_pure] at h
    obtain ⟨_, _, ⟨_, _, rfl⟩, _, _, rfl, _, rfl⟩ := h
    exact .bind rfl rfl (.bindRegistry (.refl _) (List.forall_mem_nil _) name)
  | contains placeholder =>
    simp only [registryStep, returns_bind, returns_registry, returns_pure] at h
    obtain ⟨_, _, ⟨_, rfl⟩, _, rfl⟩ := h
    exact .bind rfl rfl (.refl _)
  | look =>
    simp only [registryStep, returns_bind, returns_registry, returns_pure] at h
    obtain ⟨_, _, ⟨_, rfl⟩, _, rfl⟩ := h
    exact .bind rfl rfl (.refl _)

/-- What a step leaves is a change that belongs to it. -/
theorem change_step {step : Step} {a : Answer} (h : (Eval.step step).Returns s a t) :
    s.Change step t := by
  cases step with
  | create name given =>
    simp only [Eval.step, returns_bind, returns_modify, returns_pure] at h
    obtain ⟨_, _, rfl, _, rfl⟩ := h
    exact .create name given
  | newDocument builder config settings => exact change_newDocument h
  | call name call =>
    simp only [Eval.step, returns_bind, returns_get, returns_builder] at h
    obtain ⟨call, u, hc, _, _, ⟨rfl, rfl⟩, b, _, ⟨hb, rfl⟩, h⟩ := h
    rw [returns_complete h]
    exact .call hc hb
  | placeholder name placeholder target =>
    simp only [Eval.step, returns_bind, returns_builder] at h
    obtain ⟨b, _, ⟨hb, rfl⟩, h⟩ := h
    split at h
    · rw [(returns_pure.mp h).2]
      exact .bind rfl rfl (.refl _)
    · rename_i handle hp
      simp only [returns_bind, returns_modify, returns_pure] at h
      obtain ⟨_, _, rfl, _, rfl⟩ := h
      refine .bind rfl rfl (.bindHandle (.refl _) (.inr (.inr ⟨name, b, hb, ?_⟩)) target)
      exact Builder.mem_handles_of_placeholder hp
  | share name target =>
    simp only [Eval.step, returns_bind, returns_takeBuilder, returns_modify, returns_pure] at h
    obtain ⟨b, _, ⟨hb, rfl⟩, _, _, rfl, _, rfl⟩ := h
    exact .share hb
  | look name look =>
    simp only [Eval.step, returns_bind, returns_builder, returns_get, returns_ofLogged] at h
    obtain ⟨_, _, ⟨_, rfl⟩, _, _, ⟨_, rfl⟩, _, rfl⟩ := h
    exact .bind rfl rfl (.refl _)
  | handleCall name call =>
    simp only [Eval.step, returns_bind, returns_get, returns_handle] at h
    obtain ⟨call, u, hc, _, _, ⟨rfl, rfl⟩, handle, _, ⟨hh, rfl⟩, h⟩ := h
    rw [returns_complete h]
    exact .handleCall hc hh
  | copyHandle name target =>
    simp only [Eval.step, returns_bind, returns_handle, returns_modify, returns_pure] at h
    obtain ⟨handle, _, ⟨hh, rfl⟩, _, _, rfl, _, rfl⟩ := h
    exact .bind rfl rfl (.bindHandle (.refl _) (.inl ⟨name, hh⟩) target)
  | sameSlot name other =>
    simp only [Eval.step, returns_bind, returns_handle, returns_pure] at h
    obtain ⟨_, _, ⟨_, rfl⟩, _, _, ⟨_, rfl⟩, _, rfl⟩ := h
    exact .bind rfl rfl (.refl _)
  | lookHandle name look =>
    simp only [Eval.step, returns_bind, returns_handle, returns_get, returns_ofLogged] at h
    obtain ⟨_, _, ⟨_, rfl⟩, _, _, ⟨_, rfl⟩, _, rfl⟩ := h
    exact .bind rfl rfl (.refl _)
  | registry name step => exact change_registryStep h
  | nest | edit | abort => exact (returns_failure.mp h).elim

theorem returns_complete_self (o : Outcome Session) (s : Session) :
    ∃ a, (complete o).Returns s a o.state := by
  cases h : o.refusal with
  | none => exact ⟨.done, by simp [complete, returns_bind, h]⟩
  | some e => exact ⟨.refused e, by simp [complete, returns_bind, h]⟩

end Eval

namespace Session

variable {s u : Session} {name : String}

/-- A call that can be evaluated is made. -/
theorem session_perform_call {e : BuilderCall ContentExpr ValueExpr TextExpr}
    {call : BuilderCall Content AttributeValue String} {b : Builder}
    (he : (Eval.builderCall e).Returns s call u) (hb : u.builder? name = some b) :
    (s.perform (.call name e)).session = (u.callBuilder name b call).state := by
  obtain ⟨a, ha⟩ := Eval.returns_complete_self (u.callBuilder name b call) u
  refine session_perform_of_returns (a := a) ?_
  simp only [Eval.step, Eval.returns_bind, Eval.returns_get, Eval.returns_builder]
  exact ⟨call, u, he, u, u, ⟨rfl, rfl⟩, b, u, ⟨hb, rfl⟩, ha⟩

theorem session_perform_handleCall {e : HandleCall ContentExpr} {call : HandleCall Content}
    {h : Handle} (he : (Eval.handleCall e).Returns s call u) (hh : u.handles.find? name = some h) :
    (s.perform (.handleCall name e)).session = (u.callHandle h call).state := by
  obtain ⟨a, ha⟩ := Eval.returns_complete_self (u.callHandle h call) u
  refine session_perform_of_returns (a := a) ?_
  simp only [Eval.step, Eval.returns_bind, Eval.returns_get, Eval.returns_handle]
  exact ⟨call, u, he, u, u, ⟨rfl, rfl⟩, h, u, ⟨hh, rfl⟩, ha⟩

/-- A call that cannot be evaluated changes nothing, and so does one on what is not there. -/
theorem session_perform_call_of_fails {e : BuilderCall ContentExpr ValueExpr TextExpr}
    (he : (Eval.builderCall e).result s = none) (name : String) :
    (s.perform (.call name e)).session = s :=
  session_perform_of_fails (by simp [Eval.step, Eval.result_bind, he])

theorem session_perform_call_of_unknown {e : BuilderCall ContentExpr ValueExpr TextExpr}
    {call : BuilderCall Content AttributeValue String}
    (he : (Eval.builderCall e).result s = some (call, u)) (hb : u.builder? name = none) :
    (s.perform (.call name e)).session = s :=
  session_perform_of_fails
    (by simp [Eval.step, Eval.result_bind, he, Eval.builder, Eval.result_ofOption, hb])

theorem session_perform_handleCall_of_fails {e : HandleCall ContentExpr}
    (he : (Eval.handleCall e).result s = none) (name : String) :
    (s.perform (.handleCall name e)).session = s :=
  session_perform_of_fails (by simp [Eval.step, Eval.result_bind, he])

theorem session_perform_handleCall_of_unknown {e : HandleCall ContentExpr}
    {call : HandleCall Content} (he : (Eval.handleCall e).result s = some (call, u))
    (hh : u.handles.find? name = none) : (s.perform (.handleCall name e)).session = s :=
  session_perform_of_fails
    (by simp [Eval.step, Eval.result_bind, he, Eval.handle, Eval.result_ofOption, hh])

end Session

/-- Whether it succeeds or not, a step leaves a change that belongs to it. -/
theorem Session.change_perform (s : Session) (step : Step) :
    s.Change step (s.perform step).session := by
  rcases session_perform s step with h | ⟨_, h⟩
  · rw [h]
    exact .bind rfl rfl (.refl s)
  · exact Eval.change_step h

end Hypertext
