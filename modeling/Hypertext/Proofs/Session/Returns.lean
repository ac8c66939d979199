import Hypertext.Session.Run

/-! # What evaluations return

An evaluation that succeeds returns a value and leaves a session; what it logs does not matter
here. A composed evaluation is taken apart into the evaluations that it is made of. -/

namespace Hypertext.Eval

variable {α β : Type} {s t : Session}

/-- What the evaluation returns, with the session that it leaves. -/
def result (x : Eval α) (s : Session) : Option (α × Session) :=
  (x.run s).run.value

/-- From the session `s`, the evaluation returns `a` and leaves `t`. -/
def Returns (x : Eval α) (s : Session) (a : α) (t : Session) : Prop :=
  x.result s = some (a, t)

@[simp] theorem result_pure (a : α) (s : Session) : (pure a : Eval α).result s = some (a, s) := rfl

theorem result_bind (x : Eval α) (f : α → Eval β) (s : Session) :
    (x >>= f).result s = (x.result s).bind fun r => (f r.1).result r.2 := by
  unfold result
  rw [StateT.run_bind, OptionT.run_bind, Option.elimM, Logged.value_bind]
  cases (x.run s).run.value <;> rfl

theorem result_map (f : α → β) (x : Eval α) (s : Session) :
    (f <$> x).result s = (x.result s).map fun r => (f r.1, r.2) := by
  rw [← bind_pure_comp, result_bind]
  cases x.result s <;> rfl

@[simp] theorem result_failure (s : Session) : (failure : Eval α).result s = none := rfl

@[simp] theorem result_ofLogged (x : Logged α) (s : Session) :
    (ofLogged x).result s = some (x.value, s) := rfl

@[simp] theorem result_get (s : Session) : (get : Eval Session).result s = some (s, s) := rfl

@[simp] theorem result_set (u s : Session) : (set u : Eval PUnit).result s = some (⟨⟩, u) := rfl

@[simp] theorem result_modify (f : Session → Session) (s : Session) :
    (modify f : Eval PUnit).result s = some (⟨⟩, f s) := rfl

theorem result_ofOption (o : Option α) (s : Session) :
    (ofOption o).result s = o.map fun a => (a, s) := by
  cases o <;> rfl

@[simp] theorem returns_pure {a b : α} : (pure a : Eval α).Returns s b t ↔ b = a ∧ t = s := by
  simp [Returns, eq_comm]

theorem returns_bind {x : Eval α} {f : α → Eval β} {b : β} :
    (x >>= f).Returns s b t ↔ ∃ a u, x.Returns s a u ∧ (f a).Returns u b t := by
  simp [Returns, result_bind, Option.bind_eq_some_iff]

@[simp] theorem returns_map {x : Eval α} {f : α → β} {b : β} :
    (f <$> x).Returns s b t ↔ ∃ a, x.Returns s a t ∧ f a = b := by
  simp [Returns, result_map]

theorem discard_eq_map (x : Eval α) : discard x = (fun _ => PUnit.unit) <$> x := by
  rw [Functor.discard, map_const]
  rfl

@[simp] theorem returns_discard {x : Eval α} {u : PUnit} :
    (discard x).Returns s u t ↔ ∃ a, x.Returns s a t := by
  simp [discard_eq_map]

@[simp] theorem returns_failure {a : α} : (failure : Eval α).Returns s a t ↔ False := by
  simp [Returns]

@[simp] theorem returns_ofLogged {x : Logged α} {a : α} :
    (ofLogged x).Returns s a t ↔ a = x.value ∧ t = s := by
  simp [Returns, eq_comm]

@[simp] theorem returns_ofOption {o : Option α} {a : α} :
    (ofOption o).Returns s a t ↔ o = some a ∧ t = s := by
  cases o <;> simp [Returns, result_ofOption, eq_comm]

@[simp] theorem returns_get {u : Session} :
    (get : Eval Session).Returns s u t ↔ u = s ∧ t = s := by
  simp [Returns, eq_comm]

@[simp] theorem returns_set {u : Session} {a : PUnit} :
    (set u : Eval PUnit).Returns s a t ↔ t = u := by
  simp [Returns, eq_comm]

@[simp] theorem returns_modify {f : Session → Session} {a : PUnit} :
    (modify f : Eval PUnit).Returns s a t ↔ t = f s := by
  simp [Returns, eq_comm]

/-! ## Variables -/

@[simp] theorem returns_builder {name : String} {b : Builder} :
    (builder name).Returns s b t ↔ s.builder? name = some b ∧ t = s := by
  simp [builder, returns_bind, and_assoc]

@[simp] theorem returns_handle {name : String} {h : Handle} :
    (handle name).Returns s h t ↔ s.handles.find? name = some h ∧ t = s := by
  simp [handle, returns_bind, and_assoc]

@[simp] theorem returns_registry {name : String} {r : Registry} :
    (registry name).Returns s r t ↔ s.registries.find? name = some r ∧ t = s := by
  simp [registry, returns_bind, and_assoc]

@[simp] theorem returns_takeBuilder {name : String} {b : Builder} :
    (takeBuilder name).Returns s b t ↔
      s.builders.find? name = some (.own b) ∧ t = { s with builders := s.builders.erase name } := by
  simp only [takeBuilder, returns_bind, returns_get]
  constructor
  · rintro ⟨_, _, ⟨rfl, rfl⟩, h⟩
    split at h
    · rename_i hb
      obtain ⟨_, _, hm, hp⟩ := returns_bind.mp h
      obtain ⟨rfl, rfl⟩ := returns_pure.mp hp
      exact ⟨hb, returns_modify.mp hm⟩
    · exact (returns_failure.mp h).elim
  · rintro ⟨hb, rfl⟩
    refine ⟨s, s, ⟨rfl, rfl⟩, ?_⟩
    rw [hb]
    exact returns_bind.mpr ⟨(), _, returns_modify.mpr rfl, returns_pure.mpr ⟨rfl, rfl⟩⟩

/-! ## Texts, values and contents -/

theorem returns_rendering {source : Source} {text : String}
    (h : (rendering source).Returns s text t) : t = s := by
  cases source <;> simp [rendering, returns_bind, and_assoc] at h <;> exact h.choose_spec.2.2

theorem returns_text {e : TextExpr} {text : String} (h : (Eval.text e).Returns s text t) :
    t = s := by
  cases e with
  | literal => exact (returns_pure.mp h).2
  | rendering => exact returns_rendering h

theorem returns_value {e : ValueExpr} {v : AttributeValue} (h : (value e).Returns s v t) :
    t = s := by
  cases e with
  | literal => exact (returns_pure.mp h).2
  | rendering =>
    obtain ⟨_, h, _⟩ := returns_map.mp h
    exact returns_rendering h

theorem returns_setting {e : Setting ValueExpr} {v : Setting AttributeValue}
    (h : (setting e).Returns s v t) : t = s := by
  cases e with
  | htmlAttribute =>
    obtain ⟨_, hr, _⟩ := returns_map.mp h
    exact returns_value hr
  | _ => exact (returns_pure.mp h).2

/-! ## Lists -/

/-- What every evaluation of the elements keeps and returns, the evaluation of a list does. -/
theorem returns_mapM {α β : Type} {I : Session → Prop} {Q : β → Prop} {f : α → Eval β}
    {as : List α} {bs : List β}
    (hf : ∀ a ∈ as, ∀ s b t, I s → (f a).Returns s b t → Q b ∧ I t)
    (hs : I s) (h : (as.mapM f).Returns s bs t) : (∀ b ∈ bs, Q b) ∧ I t := by
  induction as generalizing s bs with
  | nil =>
    simp only [List.mapM_nil, returns_pure] at h
    obtain ⟨rfl, rfl⟩ := h
    exact ⟨List.forall_mem_nil _, hs⟩
  | cons a as ih =>
    simp only [List.mapM_cons, returns_bind, returns_pure] at h
    obtain ⟨b, u, hb, cs, _, hcs, rfl, rfl⟩ := h
    obtain ⟨hf, has⟩ := List.forall_mem_cons.mp hf
    obtain ⟨hq, hu⟩ := hf s b u hs hb
    obtain ⟨hqs, ht⟩ := ih has hu hcs
    exact ⟨List.forall_mem_cons.mpr ⟨hq, hqs⟩, ht⟩

/-- To evaluate settings changes nothing. -/
theorem returns_settings {es : List (Setting ValueExpr)} {settings : List (Setting AttributeValue)}
    (h : (es.mapM setting).Returns s settings t) : t = s := by
  have evaluated : ∀ e ∈ es, ∀ u v w, u = s → (setting e).Returns u v w → True ∧ w = s :=
    fun _ _ _ _ _ hu h => ⟨trivial, (returns_setting h).trans hu⟩
  exact (returns_mapM evaluated rfl h).2

end Hypertext.Eval
