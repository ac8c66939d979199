import Hypertext.Proofs.Builder.Made
import Hypertext.Proofs.Session.Changes

/-! # What sessions are made of

The builders of a session, in its variables and in its slots, are made from what the actions bring.
If every action brings only what a policy permits, every builder is made as it permits. -/

namespace Hypertext

variable {P : Policy}

/-! ## Permitted actions -/

/-- The text has the property. What a rendering comes to is not known beforehand, so every text has
to have it then. -/
def TextExpr.Permitted (property : String → Prop) : TextExpr → Prop
  | .literal text => property text
  | .rendering _ => ∀ text, property text

def ContentExpr.Permitted (P : Policy) : ContentExpr → Prop
  | .markup html => html.Permitted P.markup
  | .empty | .text _ | .copy _ | .move _ | .handle _ => True

def Setting.Permitted {α : Type} (P : Policy) : Setting α → Prop
  | .htmlAttribute identifier _ => P.attributes identifier
  | .lang _ => P.attributes "lang"
  | .url u => ∀ r, Resource.classify u = .ok r → P.Links r
  | .title _ | .viewport _ | .viewportContent _ => True

def Step.Permitted (P : Policy) : Step → Prop
  | .newDocument _ loaded settings =>
    P.Documents ∧ (∀ s ∈ settings, s.Permitted P) ∧
      ∀ config, loaded = .ok config → P.Config config
  | .call _ c => c.Permitted P (ContentExpr.Permitted P) (TextExpr.Permitted P.comments)
  | .handleCall _ c => c.Permitted (ContentExpr.Permitted P)
  | _ => True

def Action.Permitted (P : Policy) : Action → Prop
  | .perform step => step.Permitted P
  | .leaveScope _ | .beginEdit .. | .endEdit _ => True

/-! ## Configurations -/

theorem Policy.Permits.setEntry {a : Attribute} {entries : List Attribute}
    (h : P.Permits ⟨entries⟩) (ha : P.attributes a.identifier) :
    P.Permits ⟨Attributes.setEntry a entries⟩ := by
  induction entries with
  | nil => exact List.forall_mem_singleton.mpr ha
  | cons e es ih =>
    obtain ⟨he, hes⟩ := List.forall_mem_cons.mp h
    unfold Attributes.setEntry
    split
    · exact List.forall_mem_cons.mpr ⟨ha, hes⟩
    · exact List.forall_mem_cons.mpr ⟨he, ih hes⟩

theorem Policy.Config.apply {config : DocumentConfig} {setting : Setting AttributeValue}
    (hc : P.Config config) (hs : setting.Permitted P) : P.Config (config.apply setting) := by
  cases setting with
  | title title => exact ⟨hc.html, hc.urls⟩
  | lang lang => exact ⟨hc.html.setEntry hs, hc.urls⟩
  | htmlAttribute identifier v => exact ⟨hc.html.setEntry hs, hc.urls⟩
  | viewport enabled => exact ⟨hc.html, hc.urls⟩
  | viewportContent viewport => exact ⟨hc.html, hc.urls⟩
  | url url =>
    refine ⟨hc.html, ?_⟩
    intro u hu
    rcases List.mem_append.mp hu with hu | hu
    · exact hc.urls u hu
    · rw [List.mem_singleton.mp hu]
      exact hs

theorem Policy.Config.applyAll {config : DocumentConfig} {settings : List (Setting AttributeValue)}
    (hc : P.Config config) (hs : ∀ setting ∈ settings, setting.Permitted P) :
    P.Config (settings.foldl DocumentConfig.apply config) := by
  induction settings generalizing config with
  | nil => exact hc
  | cons setting settings ih =>
    obtain ⟨h, hs⟩ := List.forall_mem_cons.mp hs
    exact ih (hc.apply h) hs

/-- Every builder, in a variable or in a slot, is made as the policy permits. -/
structure Session.Made (P : Policy) (s : Session) : Prop where
  store : s.store.Made P
  own : ∀ name b, (name, Site.own b) ∈ s.builders.entries → b.Made P

namespace Session.Made

variable {s : Session} {name : String} {b : Builder}

theorem start : ({} : Session).Made P where
  store i := by
    have empty : ({} : Store).builder i = { name := "" } := by simp [Store.builder, Store.slot]
    rw [empty]
    exact .new ""
  own _ _ h := nomatch h

theorem find? {site : Site} (hs : s.Made P) (h : s.builders.find? name = some site) :
    (s.builderAt site).Made P := by
  cases site with
  | own b => exact hs.own name b (Bindings.mem_of_find?_eq_some h)
  | slot i => exact hs.store i

theorem builder? (hs : s.Made P) (h : s.builder? name = some b) : b.Made P := by
  obtain ⟨site, hf, rfl⟩ := Option.map_eq_some_iff.mp h
  exact hs.find? hf

theorem withStore {st : Store} (hs : s.Made P) (h : st.Made P) :
    ({ s with store := st } : Session).Made P :=
  ⟨h, hs.own⟩

theorem erase (hs : s.Made P) (name : String) :
    ({ s with builders := s.builders.erase name } : Session).Made P :=
  ⟨hs.store, fun n b h => hs.own n b (List.mem_of_mem_eraseP h)⟩

theorem putBuilder (hs : s.Made P) (hb : b.Made P) (name : String) :
    (s.putBuilder name b).Made P := by
  unfold Session.putBuilder
  split
  · exact hs.withStore (hs.store.put hb _)
  · refine ⟨hs.store, ?_⟩
    intro n c h
    rcases Bindings.mem_insert_own h with rfl | h
    · exact hb
    · exact hs.own n c h

theorem share (hs : s.Made P) (hb : b.Made P) (target : String) : (s.share b target).Made P :=
  ⟨hs.store.allocate hb, hs.own⟩

theorem leaveScope (hs : s.Made P) (name : String) : (s.leaveScope name).Made P := by
  unfold Session.leaveScope
  split
  · rename_i b hb
    exact hs.putBuilder (hs.builder? hb).leaveScope name
  · exact hs

theorem beginEdit (hs : s.Made P) (i : SlotId) (name : String) : (s.beginEdit i name).Made P :=
  ⟨hs.store.setEditing i true, fun n b h => hs.own n b (Bindings.mem_push_slot h)⟩

theorem endEdit (hs : s.Made P) (i : SlotId) : (s.endEdit i).Made P :=
  ⟨hs.store.setEditing i false, fun n b h => hs.own n b (List.mem_of_mem_filter h)⟩

end Session.Made

/-! ## Evaluations -/

namespace Eval

variable {s t : Session}

theorem made_text {e : TextExpr} {property : String → Prop} {text : String}
    (he : e.Permitted property) (h : (Eval.text e).Returns s text t) : property text := by
  cases e with
  | literal =>
    obtain ⟨rfl, _⟩ := returns_pure.mp h
    exact he
  | rendering => exact he text

theorem made_content {e : ContentExpr} {c : Content} (he : e.Permitted P) (hs : s.Made P)
    (h : (content e).Returns s c t) : c.Made P ∧ t.Made P := by
  cases e with
  | empty =>
    obtain ⟨rfl, rfl⟩ := returns_pure.mp h
    exact ⟨trivial, hs⟩
  | text e =>
    obtain ⟨text, hr, rfl⟩ := returns_map.mp h
    rw [returns_text hr]
    exact ⟨trivial, hs⟩
  | markup e =>
    obtain ⟨html, hr, rfl⟩ := returns_map.mp h
    rw [returns_text hr]
    exact ⟨made_text he hr, hs⟩
  | copy name =>
    obtain ⟨b, _, hb, hr⟩ := returns_bind.mp h
    obtain ⟨hb, rfl⟩ := returns_builder.mp hb
    obtain ⟨rfl, rfl⟩ := returns_pure.mp hr
    exact ⟨(hs.builder? hb).snapshot, hs⟩
  | move name =>
    obtain ⟨b, hr, rfl⟩ := returns_map.mp h
    obtain ⟨hb, rfl⟩ := returns_takeBuilder.mp hr
    exact ⟨hs.find? hb, hs.erase name⟩
  | handle name =>
    obtain ⟨handle, hr, rfl⟩ := returns_map.mp h
    rw [(returns_handle.mp hr).2]
    exact ⟨trivial, hs⟩

theorem made_setting {e : Setting ValueExpr} {v : Setting AttributeValue} (he : e.Permitted P)
    (h : (setting e).Returns s v t) : v.Permitted P := by
  cases e with
  | htmlAttribute identifier e =>
    obtain ⟨v, _, rfl⟩ := returns_map.mp h
    exact he
  | _ =>
    obtain ⟨rfl, _⟩ := returns_pure.mp h
    exact he

theorem made_builderCall {e : BuilderCall ContentExpr ValueExpr TextExpr}
    {call : BuilderCall Content AttributeValue String}
    (he : e.Permitted P (ContentExpr.Permitted P) (TextExpr.Permitted P.comments))
    (hs : s.Made P) (h : (builderCall e).Returns s call t) : call.Made P ∧ t.Made P :=
  permitted_builderCall (fun _ he _ _ _ hs h => made_content he hs h)
    (fun _ he _ _ _ h => made_text he h) he hs h

theorem made_handleCall {e : HandleCall ContentExpr} {call : HandleCall Content}
    (he : e.Permitted (ContentExpr.Permitted P)) (hs : s.Made P)
    (h : (handleCall e).Returns s call t) : call.Made P ∧ t.Made P :=
  permitted_handleCall (fun _ he _ _ _ hs h => made_content he hs h) he hs h

theorem made_newDocument {builder : String} {loaded : Except ConfigError DocumentConfig}
    {settings : List (Setting ValueExpr)} {a : Answer}
    (hp : (Step.newDocument builder loaded settings).Permitted P) (hs : s.Made P)
    (h : (newDocument builder loaded settings).Returns s a t) : t.Made P := by
  obtain ⟨hd, he, hc⟩ := hp
  obtain ⟨changes, u, hm, h⟩ := returns_bind.mp h
  have hset : ∀ e ∈ settings, ∀ u v w, Session.Made P u → (setting e).Returns u v w →
      v.Permitted P ∧ w.Made P := by
    intro e hm u v w hu h
    rw [returns_setting h]
    exact ⟨made_setting (he e hm) h, hu⟩
  obtain ⟨hv, hu⟩ := returns_mapM hset hs hm
  cases loaded with
  | error e =>
    rw [(returns_pure.mp h).2]
    exact hu
  | ok config =>
    dsimp only at h
    split at h
    · rw [(returns_pure.mp h).2]
      exact hu
    · rename_i doc hdoc
      simp only [returns_bind, returns_ofLogged, returns_modify, returns_pure] at h
      obtain ⟨_, _, ⟨rfl, rfl⟩, _, _, rfl, _, rfl⟩ := h
      exact hu.putBuilder (.document hd ((hc config rfl).applyAll hv) hdoc) builder

end Eval

/-! ## Runs -/

namespace Session.Made

/-- A permitted step keeps what the builders are made of. What a document is made of is not told by
the change alone. -/
theorem change {s t : Session} {step : Step} (hp : step.Permitted P) (hs : s.Made P)
    (documents : ∀ name loaded settings, step = .newDocument name loaded settings → t.Made P)
    (h : s.Change step t) : t.Made P := by
  cases h with
  | create name given => exact hs.putBuilder (.new _) name
  | document => exact documents _ _ _ rfl
  | call he hb =>
    obtain ⟨hc, hu⟩ := Eval.made_builderCall hp hs he
    obtain ⟨hb, hst⟩ := hc.run (hu.builder? hb) hu.store
    exact (hu.withStore hst).putBuilder hb _
  | share hb => exact (hs.erase _).share (hs.find? hb) _
  | handleCall he hh =>
    obtain ⟨hc, hu⟩ := Eval.made_handleCall hp hs he
    exact hu.withStore (hc.run hu.store _)
  | declare hr hd hst hb hn =>
    refine ⟨?_, by rw [hb]; exact hs.own⟩
    rw [hst]
    exact hs.store.declare hd
  | bind hst hb hn => exact ⟨by rw [hst]; exact hs.store, by rw [hb]; exact hs.own⟩

theorem perform {s : Session} {step : Step} (hp : step.Permitted P) (hs : s.Made P) :
    (s.perform step).session.Made P := by
  refine hs.change hp ?_ (s.change_perform step)
  rintro name loaded settings rfl
  rcases session_perform s (.newDocument name loaded settings) with h | ⟨_, h⟩
  · rwa [h]
  · exact Eval.made_newDocument hp hs h

theorem act {s : Session} {a : Action} (hp : a.Permitted P) (hs : s.Made P) : (s.act a).Made P := by
  cases a with
  | perform step => exact hs.perform hp
  | leaveScope name => exact hs.leaveScope name
  | beginEdit name target =>
    simp only [Session.act]
    split
    · split
      · exact hs
      · exact hs.beginEdit _ target
    · exact hs
  | endEdit i => exact hs.endEdit i

theorem run {s : Session} {actions : List Action} (hp : ∀ a ∈ actions, a.Permitted P)
    (hs : s.Made P) : (s.run actions).Made P := by
  induction actions generalizing s with
  | nil => exact hs
  | cons a actions ih =>
    obtain ⟨ha, hp⟩ := List.forall_mem_cons.mp hp
    exact ih hp (hs.act ha)

end Session.Made

/-! ## Without a policy -/

theorem TextExpr.permitted_of_forall {property : String → Prop} (h : ∀ text, property text)
    (e : TextExpr) : e.Permitted property := by
  cases e with
  | literal text => exact h text
  | rendering => exact h

theorem ContentExpr.permitted_any (e : ContentExpr) : e.Permitted .any := by
  cases e with
  | markup html => exact html.permitted_of_forall fun _ => trivial
  | _ => trivial

theorem Setting.permitted_any {α : Type} (setting : Setting α) : setting.Permitted .any := by
  cases setting with
  | url url => exact fun r _ => Policy.any_links r
  | _ => trivial

theorem BuilderCall.permitted_any (call : BuilderCall ContentExpr ValueExpr TextExpr) :
    call.Permitted .any (ContentExpr.Permitted .any) (TextExpr.Permitted Policy.any.comments) :=
  call.permitted_of_forall ContentExpr.permitted_any
    (TextExpr.permitted_of_forall fun _ => trivial)

theorem HandleCall.permitted_any (call : HandleCall ContentExpr) :
    call.Permitted (ContentExpr.Permitted .any) :=
  call.permitted_of_forall ContentExpr.permitted_any

/-- Every action is permitted when nothing is forbidden. -/
theorem Action.permitted_any (a : Action) : a.Permitted .any := by
  cases a with
  | perform step =>
    cases step with
    | newDocument builder loaded settings =>
      exact ⟨Policy.any_documents, fun s _ => s.permitted_any, fun config _ => Policy.any_config config⟩
    | call name call => exact call.permitted_any
    | handleCall name call => exact call.permitted_any
    | _ => trivial
  | _ => trivial

/-- Every builder of a session that can be reached is made by the builders' own operations. -/
theorem Session.Reachable.made {s : Session} (h : s.Reachable) : s.Made .any := by
  induction h with
  | start => exact .start
  | act a _ ih => exact ih.act a.permitted_any

end Hypertext
