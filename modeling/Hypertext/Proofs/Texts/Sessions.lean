import Hypertext.Proofs.Session.Made
import Hypertext.Proofs.Texts.Documents

/-! # Sessions without texts

What happens to the variables of a session happens to them with the texts taken out. -/

namespace Hypertext

/-- The values change, the names stay. -/
def Bindings.map {α β : Type} (f : α → β) (v : Bindings α) : Bindings β :=
  ⟨v.entries.map fun e => (e.1, f e.2)⟩

namespace Bindings

variable {α β : Type} (f : α → β) (v : Bindings α)

theorem find?_map (name : String) : (v.map f).find? name = (v.find? name).map f := by
  simp only [find?, map]
  induction v.entries with
  | nil => rfl
  | cons e es ih =>
    obtain ⟨key, a⟩ := e
    cases h : name == key <;> simp [List.lookup_cons, h, ih]

theorem map_erase (name : String) : (v.erase name).map f = (v.map f).erase name := by
  simp only [erase, map, Bindings.mk.injEq]
  induction v.entries with
  | nil => rfl
  | cons e es ih => cases h : name == e.1 <;> simp [h, ih]

theorem map_insert (name : String) (a : α) :
    (v.insert name a).map f = (v.map f).insert name (f a) := by
  rw [insert, insert, ← map_erase]
  rfl

theorem map_keep (p : α → Bool) (q : β → Bool) (h : ∀ a, q (f a) = p a) :
    (v.keep p).map f = (v.map f).keep q := by
  simp [keep, map, List.filter_map, Function.comp_def, h]

end Bindings

def Site.erase : Site → Site
  | .own b => .own b.erase
  | .slot i => .slot i

namespace Session

def erase (s : Session) : Session :=
  { s with store := s.store.erase, builders := s.builders.map Site.erase }

/-- The sessions are the same but for texts. -/
def Alike (s s' : Session) : Prop :=
  s.erase = s'.erase

theorem builder?_erase (s : Session) (name : String) :
    s.erase.builder? name = (s.builder? name).map Builder.erase := by
  simp only [builder?, erase, Bindings.find?_map, Option.map_map]
  congr 1
  funext site
  cases site with
  | own b => rfl
  | slot i => exact s.store.builder_erase i

theorem erase_putBuilder (s : Session) (name : String) (b : Builder) :
    (s.putBuilder name b).erase = s.erase.putBuilder name b.erase := by
  simp only [putBuilder, erase, Bindings.find?_map]
  cases s.builders.find? name with
  | none => simp only [Option.map_none, Bindings.map_insert, Site.erase]
  | some site =>
    cases site with
    | own c => simp only [Option.map_some, Site.erase, Bindings.map_insert]
    | slot i => simp only [Option.map_some, Site.erase, Store.erase_put]

theorem erase_share (s : Session) (b : Builder) (target : String) :
    (s.share b target).erase = s.erase.share b.erase target := by
  simp [share, erase, bindHandle, Store.erase_allocate, Builder.sharedHandle]

theorem erase_leaveScope (s : Session) (name : String) :
    (s.leaveScope name).erase = s.erase.leaveScope name := by
  unfold leaveScope
  rw [builder?_erase]
  cases s.builder? name with
  | none => rfl
  | some b => simp only [Option.map_some, erase_putBuilder, Builder.erase_leaveScope]

theorem erase_beginEdit (s : Session) (i : SlotId) (name : String) :
    (s.beginEdit i name).erase = s.erase.beginEdit i name := by
  simp [beginEdit, erase, Store.erase_setEditing, Bindings.push, Bindings.map, Site.erase]

theorem erase_endEdit (s : Session) (i : SlotId) :
    (s.endEdit i).erase = s.erase.endEdit i := by
  have kept := Bindings.map_keep Site.erase s.builders (fun site => !site.isSlot i)
    (fun site => !site.isSlot i) (fun site => by cases site <;> rfl)
  simp only [endEdit, erase, Store.erase_setEditing, kept]

end Session

/-- What is the same behind `f` is there on both sides or on none. -/
theorem rel_of_map_eq {α β : Type} {f : α → β} {o o' : Option α} (h : o.map f = o'.map f) :
    Option.Rel (fun a a' => f a = f a') o o' := by
  cases o <;> cases o' <;> simp at h
  · exact .none
  · exact .some h

theorem rel_refl {α : Type} {R : α → α → Prop} (hr : ∀ a, R a a) (o : Option α) :
    Option.Rel R o o := by
  cases o
  · exact .none
  · exact .some (hr _)

namespace Session.Alike

variable {s s' : Session}

theorem store (h : s.Alike s') : s.store.erase = s'.store.erase :=
  congrArg Session.store h

theorem handles (h : s.Alike s') : s.handles = s'.handles := by
  have same : s.erase.handles = s'.erase.handles := congrArg Session.handles h
  exact same

theorem registries (h : s.Alike s') : s.registries = s'.registries := by
  have same : s.erase.registries = s'.erase.registries := congrArg Session.registries h
  exact same

/-- A variable is in both sessions or in none. -/
theorem builder? (h : s.Alike s') (name : String) :
    Option.Rel (fun b b' => b.erase = b'.erase) (s.builder? name) (s'.builder? name) := by
  apply rel_of_map_eq
  rw [← builder?_erase, ← builder?_erase]
  exact congrArg (Session.builder? · name) h

theorem find? (h : s.Alike s') (name : String) :
    Option.Rel (fun site site' => site.erase = site'.erase) (s.builders.find? name)
      (s'.builders.find? name) := by
  apply rel_of_map_eq
  rw [← Bindings.find?_map, ← Bindings.find?_map]
  exact congrArg (fun s : Session => s.builders.find? name) h

theorem putBuilder {b b' : Builder} (h : s.Alike s') (hb : b.erase = b'.erase) (name : String) :
    (s.putBuilder name b).Alike (s'.putBuilder name b') := by
  rw [Alike, erase_putBuilder, erase_putBuilder, h, hb]

theorem share {b b' : Builder} (h : s.Alike s') (hb : b.erase = b'.erase) (target : String) :
    (s.share b target).Alike (s'.share b' target) := by
  rw [Alike, erase_share, erase_share, h, hb]

theorem withStore {st st' : Store} (h : s.Alike s') (hst : st.erase = st'.erase) :
    ({ s with store := st } : Session).Alike { s' with store := st' } := by
  have same := congrArg (fun t : Session => { t with store := st.erase }) h
  rw [Alike, erase, erase, ← hst]
  exact same

theorem removing (h : s.Alike s') (name : String) :
    ({ s with builders := s.builders.erase name } : Session).Alike
      { s' with builders := s'.builders.erase name } := by
  have same := congrArg (fun t : Session => { t with builders := t.builders.erase name }) h
  simp only [Alike, erase, Bindings.map_erase]
  exact same

theorem bindHandle (h : s.Alike s') (name : String) (handle : Handle) :
    (s.bindHandle name handle).Alike (s'.bindHandle name handle) :=
  congrArg (fun t : Session => t.bindHandle name handle) h

theorem bindRegistry (h : s.Alike s') (name : String) (r : Registry) :
    (s.bindRegistry name r).Alike (s'.bindRegistry name r) :=
  congrArg (fun t : Session => t.bindRegistry name r) h

end Session.Alike

/-! ## Evaluations of two sessions -/

namespace Eval

variable {α β : Type} {R : α → α → Prop} {Q : β → β → Prop} {s s' : Session}

/-- Both evaluations return, values that are related and sessions that are the same but for texts,
or none does. -/
def Together (R : α → α → Prop) (x y : Eval α) (s s' : Session) : Prop :=
  Option.Rel (fun r r' => R r.1 r'.1 ∧ r.2.Alike r'.2) (x.result s) (y.result s')

theorem Together.bind {x y : Eval α} {f g : α → Eval β} (hxy : Together R x y s s')
    (hfg : ∀ a a' u u', x.Returns s a u → y.Returns s' a' u' → R a a' → u.Alike u' →
      Together Q (f a) (g a') u u') :
    Together Q (x >>= f) (y >>= g) s s' := by
  unfold Together at hxy ⊢
  rw [result_bind, result_bind]
  cases hx : x.result s <;> cases hy : y.result s' <;> rw [hx, hy] at hxy <;> cases hxy
  · exact .none
  · rename_i r r' h
    exact hfg r.1 r'.1 r.2 r'.2 hx hy h.1 h.2

/-- It is enough to look at what is returned, whatever returned it. -/
theorem Together.andThen {x y : Eval α} {f g : α → Eval β} (hxy : Together R x y s s')
    (hfg : ∀ a a' u u', R a a' → u.Alike u' → Together Q (f a) (g a') u u') :
    Together Q (x >>= f) (y >>= g) s s' :=
  hxy.bind fun a a' u u' _ _ => hfg a a' u u'

theorem Together.andThen_eq {x y : Eval α} {f g : α → Eval β} (hxy : Together Eq x y s s')
    (hfg : ∀ a u u', u.Alike u' → Together Q (f a) (g a) u u') :
    Together Q (x >>= f) (y >>= g) s s' := by
  refine hxy.andThen ?_
  rintro a _ u u' rfl hu
  exact hfg a u u' hu

theorem together_pure {a a' : α} (ha : R a a') (hs : s.Alike s') :
    Together R (pure a) (pure a') s s' :=
  .some ⟨ha, hs⟩

theorem together_failure : Together R failure failure s s' :=
  .none

theorem Together.map {x y : Eval α} {f g : α → β} (hxy : Together R x y s s')
    (hfg : ∀ a a', R a a' → Q (f a) (g a')) : Together Q (f <$> x) (g <$> y) s s' := by
  rw [← bind_pure_comp, ← bind_pure_comp]
  exact hxy.andThen fun a a' _ _ ha hu => together_pure (hfg a a' ha) hu

theorem together_ofLogged {x y : Logged α} (h : R x.value y.value) (hs : s.Alike s') :
    Together R (ofLogged x) (ofLogged y) s s' :=
  .some ⟨h, hs⟩

theorem together_ofOption {o o' : Option α} (h : Option.Rel R o o') (hs : s.Alike s') :
    Together R (ofOption o) (ofOption o') s s' := by
  cases h with
  | none => exact .none
  | some h => exact .some ⟨h, hs⟩

theorem together_get (hs : s.Alike s') : Together Session.Alike get get s s' :=
  .some ⟨hs, hs⟩

theorem together_set {u u' : Session} (hu : u.Alike u') :
    Together (fun _ _ => True) (set u : Eval PUnit) (set u') s s' :=
  .some ⟨trivial, hu⟩

theorem together_modify {f g : Session → Session} (h : (f s).Alike (g s')) :
    Together (fun _ _ => True) (modify f : Eval PUnit) (modify g) s s' :=
  .some ⟨trivial, h⟩

theorem together_modify_pure {f g : Session → Session} (h : (f s).Alike (g s')) (a a' : α) :
    Together (fun _ _ => True) (modify f >>= fun _ => pure a) (modify g >>= fun _ => pure a')
      s s' :=
  (together_modify h).andThen fun _ _ _ _ _ hu => together_pure trivial hu

/-- Lists of expressions are evaluated together if related expressions are. -/
theorem together_mapM {P : β → β → Prop} {f : β → Eval α} {bs bs' : List β}
    (h : List.Forall₂ P bs bs')
    (hf : ∀ b ∈ bs, ∀ b' ∈ bs', P b b' → ∀ s s', s.Alike s' → Together R (f b) (f b') s s')
    (hs : s.Alike s') :
    Together (List.Forall₂ R) (bs.mapM f) (bs'.mapM f) s s' := by
  induction h generalizing s s' with
  | nil => exact together_pure .nil hs
  | cons hb _ ih =>
    rw [List.mapM_cons, List.mapM_cons]
    refine (hf _ List.mem_cons_self _ List.mem_cons_self hb s s' hs).andThen ?_
    intro a a' u u' ha hu
    have tails := ih (fun b hb b' hb' =>
      hf b (List.mem_cons_of_mem _ hb) b' (List.mem_cons_of_mem _ hb')) hu
    refine tails.andThen ?_
    intro as as' v v' has hv
    exact together_pure (.cons ha has) hv

end Eval

end Hypertext
