import Hypertext.Document.Seed
import Mathlib.Data.List.Forall2

/-! # The parts of a document

A new document is made in steps: the root element, the title, the viewport, and one element for each
resource. -/

namespace Hypertext

/-- A result without messages goes on as it is. -/
theorem Logged.silent_bind {α β : Type} (a : α) (f : α → Logged β) :
    ((⟨a, []⟩ : Logged α) >>= f) = f a := rfl

theorem Logged.silent_map {α β : Type} (a : α) (f : α → β) :
    f <$> (⟨a, []⟩ : Logged α) = ⟨f a, []⟩ := rfl

namespace Builder

/-- The root element, if there are attributes for it. -/
def withRoot (b : Builder) (html : Attributes) : Logged Builder :=
  if html.isEmpty then pure b else (b.tag "html").giveAttributes html

/-- The elements that go with a title. -/
def withTitle (b : Builder) : Option String → Logged Builder
  | none => pure b
  | some title => do
    let b ← (b.tag "meta").giveAttribute "charset" (.text "utf-8")
    return b.element "title" title

def withViewport (b : Builder) : Option String → Logged Builder
  | none => pure b
  | some viewport => do
    let b ← (b.tag "meta").giveAttribute "name" (.text "viewport")
    b.giveAttribute "content" (.text viewport)

theorem head_eq (b : Builder) (config : DocumentConfig) :
    b.head config = (do
      let b ← b.withRoot config.html
      let b ← b.withTitle config.title
      b.withViewport config.viewport) := by
  cases hh : config.html.isEmpty <;> cases ht : config.title <;> cases hv : config.viewport <;>
    simp [head, withRoot, withTitle, withViewport, hh, ht, hv]

end Builder

/-- A result for every element of a list comes from that element. -/
theorem forall₂_of_mapM_eq_ok {α β ε : Type} {f : α → Except ε β} {as : List α} {bs : List β}
    (h : as.mapM f = .ok bs) : List.Forall₂ (fun a b => f a = .ok b) as bs := by
  induction as generalizing bs with
  | nil => cases h; exact .nil
  | cons a as ih =>
    rw [List.mapM_cons] at h
    cases ha : f a with
    | error e => rw [ha] at h; cases h
    | ok b =>
      cases hs : as.mapM f with
      | error e => rw [ha, hs] at h; cases h
      | ok cs =>
        rw [ha, hs] at h
        cases h
        exact .cons ha (ih hs)

/-- All elements have results, or the first that has none decides. -/
theorem mapM_eq_error_iff {α β ε : Type} {f : α → Except ε β} {as : List α} {e : ε} :
    as.mapM f = .error e ↔
      ∃ before a after, as = before ++ a :: after ∧ (∀ x ∈ before, ∃ b, f x = .ok b) ∧
        f a = .error e := by
  induction as with
  | nil =>
    constructor
    · intro h
      cases h
    · intro h
      obtain ⟨before, a, after, h, _⟩ := h
      simp at h
  | cons a as ih =>
    rw [List.mapM_cons]
    cases ha : f a with
    | error e' =>
      constructor
      · intro h
        cases h
        exact ⟨[], a, as, rfl, fun _ hx => (nomatch hx), ha⟩
      · intro h
        obtain ⟨before, x, after, split, oks, hx⟩ := h
        cases before with
        | nil =>
          cases split
          cases ha.symm.trans hx
          rfl
        | cons y ys =>
          cases split
          obtain ⟨b, hb⟩ := oks a List.mem_cons_self
          cases ha.symm.trans hb
    | ok b =>
      have rest : (do let b ← Except.ok b; let bs ← as.mapM f; pure (b :: bs)) = .error e ↔
          as.mapM f = .error e := by
        cases as.mapM f <;> simp [Bind.bind, Except.bind, Pure.pure, Except.pure]
      rw [rest, ih]
      constructor
      · intro h
        obtain ⟨before, x, after, rfl, oks, hx⟩ := h
        exact ⟨a :: before, x, after, rfl, List.forall_mem_cons.mpr ⟨⟨b, ha⟩, oks⟩, hx⟩
      · intro h
        obtain ⟨before, x, after, split, oks, hx⟩ := h
        cases before with
        | nil =>
          cases split
          cases ha.symm.trans hx
        | cons y ys =>
          cases split
          exact ⟨ys, x, after, rfl, (List.forall_mem_cons.mp oks).2, hx⟩

theorem exists_mapM_eq_ok_iff {α β ε : Type} {f : α → Except ε β} {as : List α} :
    (∃ bs, as.mapM f = .ok bs) ↔ ∀ a ∈ as, ∃ b, f a = .ok b := by
  constructor
  · intro h
    obtain ⟨bs, h⟩ := h
    have hf := forall₂_of_mapM_eq_ok h
    clear h
    induction hf with
    | nil => exact fun _ ha => nomatch ha
    | cons hab _ ih => exact List.forall_mem_cons.mpr ⟨⟨_, hab⟩, ih⟩
  · intro h
    cases hm : as.mapM f with
    | ok bs => exact ⟨bs, rfl⟩
    | error e =>
      obtain ⟨before, a, after, rfl, _, ha⟩ := mapM_eq_error_iff.mp hm
      obtain ⟨b, hb⟩ := h a (by simp)
      cases ha.symm.trans hb

theorem forall_of_mapM_eq_ok {α β ε : Type} {f : α → Except ε β} {as : List α} {bs : List β}
    {Q : β → Prop} (h : as.mapM f = .ok bs) (hq : ∀ a ∈ as, ∀ b, f a = .ok b → Q b) :
    ∀ b ∈ bs, Q b := by
  have hf := forall₂_of_mapM_eq_ok h
  clear h
  induction hf with
  | nil => exact fun _ hb => nomatch hb
  | cons hab _ ih =>
    exact List.forall_mem_cons.mpr ⟨hq _ List.mem_cons_self _ hab,
      ih fun a ha => hq a (List.mem_cons_of_mem _ ha)⟩

end Hypertext
