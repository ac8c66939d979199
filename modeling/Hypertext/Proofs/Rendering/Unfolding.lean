import Hypertext.Proofs.Rendering.Walk
import Hypertext.Proofs.Slots.Graph
import Mathlib.Data.Finset.Card

/-! # Unfolding

What a row of fragments unfolds to is said without marks and without a bound on the depth: a slot
stands for its builder's unfolding and the end tags that the builder owes, and for nothing where it
contains itself or is being edited. Rendering comes to just that, in every store. -/

namespace Hypertext

namespace Store

/-- Inside the slots of `path`, the fragments unfold to the pieces, with the warnings. -/
inductive Unfolds (st : Store) :
    List SlotId → List Fragment → List Piece → List Message → Prop
  | nil {path : List SlotId} : Unfolds st path [] [] []
  | piece {path : List SlotId} {p : Piece} {fs : List Fragment} {ps : List Piece}
      {log : List Message} (rest : Unfolds st path fs ps log) :
      Unfolds st path (.piece p :: fs) (p :: ps) log
  | insideItself {path : List SlotId} {h : Handle} {fs : List Fragment} {ps : List Piece}
      {log : List Message} (hm : h.slot ∈ path) (rest : Unfolds st path fs ps log) :
      Unfolds st path (.slot h :: fs) ps (.insideItself h.name :: log)
  | edited {path : List SlotId} {h : Handle} {fs : List Fragment} {ps : List Piece}
      {log : List Message} (hm : h.slot ∉ path) (he : st.isEdited h.slot = true)
      (rest : Unfolds st path fs ps log) :
      Unfolds st path (.slot h :: fs) ps (.beingEdited h.name :: log)
  | entered {path : List SlotId} {h : Handle} {fs : List Fragment} {inner ps : List Piece}
      {innerLog log : List Message} (hm : h.slot ∉ path) (he : st.isEdited h.slot = false)
      (body : Unfolds st (h.slot :: path) (st.builder h.slot).fragments.toList inner innerLog)
      (rest : Unfolds st path fs ps log) :
      Unfolds st path (.slot h :: fs)
        (inner ++ (st.builder h.slot).stack.owed.map .endTag ++ ps) (innerLog ++ log)

variable {st : Store}

theorem Unfolds.append {path : List SlotId} {fs gs : List Fragment} {ps qs : List Piece}
    {log log' : List Message} (hf : st.Unfolds path fs ps log) (hg : st.Unfolds path gs qs log') :
    st.Unfolds path (fs ++ gs) (ps ++ qs) (log ++ log') := by
  induction hf with
  | nil => exact hg
  | piece _ ih => exact .piece (ih hg)
  | insideItself hm _ ih => exact .insideItself hm (ih hg)
  | edited hm he _ ih => exact .edited hm he (ih hg)
  | entered hm he body _ _ ih =>
    have whole := Unfolds.entered hm he body (ih hg)
    simpa only [List.cons_append, List.append_assoc] using whole

/-- There is only one way to unfold. -/
theorem Unfolds.unique {path : List SlotId} {fs : List Fragment} {ps qs : List Piece}
    {log log' : List Message} (h : st.Unfolds path fs ps log) (h' : st.Unfolds path fs qs log') :
    qs = ps ∧ log' = log := by
  induction h generalizing qs log' with
  | nil => cases h'; exact ⟨rfl, rfl⟩
  | piece _ ih =>
    cases h' with
    | piece rest => obtain ⟨rfl, rfl⟩ := ih rest; exact ⟨rfl, rfl⟩
  | insideItself hm _ ih =>
    cases h' with
    | insideItself _ rest => obtain ⟨rfl, rfl⟩ := ih rest; exact ⟨rfl, rfl⟩
    | edited hm' => exact absurd hm hm'
    | entered hm' => exact absurd hm hm'
  | edited hm he _ ih =>
    cases h' with
    | insideItself hm' => exact absurd hm' hm
    | edited _ _ rest => obtain ⟨rfl, rfl⟩ := ih rest; exact ⟨rfl, rfl⟩
    | entered _ he' => rw [he] at he'; cases he'
  | entered hm he _ _ ihb ihr =>
    cases h' with
    | insideItself hm' => exact absurd hm' hm
    | edited _ he' => rw [he] at he'; cases he'
    | entered _ _ body rest =>
      obtain ⟨rfl, rfl⟩ := ihb body
      obtain ⟨rfl, rfl⟩ := ihr rest
      exact ⟨rfl, rfl⟩

/-! ## The walk unfolds -/

theorem walkFragments_unfolds {enter : Handle → Marks → Walk} {path : Marks}
    (hm : ∀ h marks, (enter h marks).marks = marks)
    (hu : ∀ h, st.Unfolds path [.slot h] (enter h path).pieces (enter h path).log)
    (fs : List Fragment) :
    st.Unfolds path fs (walkFragments enter fs path).pieces (walkFragments enter fs path).log := by
  induction fs with
  | nil => exact .nil
  | cons f fs ih =>
    cases f with
    | piece p => exact .piece ih
    | slot h =>
      rw [walkFragments_slot, hm]
      exact (hu h).append ih

/-- Different slots are no more than there are. -/
theorem length_le_size {path : List SlotId} (hd : path.Nodup) (hb : ∀ i ∈ path, i < st.size) :
    path.length ≤ st.size := by
  rw [← List.toFinset_card_of_nodup hd, ← Finset.card_range st.size]
  exact Finset.card_le_card fun i hi => Finset.mem_range.mpr (hb i (List.mem_toFinset.mp hi))

/-- The depth that is left and the slots around are together more than all slots, so the walk stops
at a mark before the depth is used up. -/
theorem walkSlot_unfolds (fuel : Nat) (h : Handle) {path : Marks} (hd : path.Nodup)
    (hb : ∀ i ∈ path, i < st.size) (hf : st.size < fuel + path.length) :
    st.Unfolds path [.slot h] (st.walkSlot fuel h path).pieces (st.walkSlot fuel h path).log := by
  induction fuel generalizing h path with
  | zero =>
    have := length_le_size hd hb
    omega
  | succ fuel ih =>
    by_cases hm : h.slot ∈ path
    · rw [walkSlot_of_mem hm]
      exact .insideItself hm .nil
    · cases he : st.isEdited h.slot with
      | true =>
        rw [walkSlot_of_edited hm he]
        exact .edited hm he .nil
      | false =>
        have body : st.Unfolds (h.slot :: path) (st.builder h.slot).fragments.toList
            (walkFragments (st.walkSlot fuel) (st.builder h.slot).fragments.toList
              (h.slot :: path)).pieces
            (walkFragments (st.walkSlot fuel) (st.builder h.slot).fragments.toList
              (h.slot :: path)).log := by
          by_cases hs : h.slot < st.size
          · refine walkFragments_unfolds (marks_walkSlot st fuel) ?_ _
            intro g
            refine ih g (List.nodup_cons.mpr ⟨hm, hd⟩) ?_ (by simp only [List.length_cons]; omega)
            exact List.forall_mem_cons.mpr ⟨hs, hb⟩
          · -- a slot that is not there has no fragments, so no depth is needed
            rw [builder_of_size_le (Nat.le_of_not_lt hs)]
            exact .nil
        rw [walkSlot_of_free hm he]
        simpa only [walkBuilder, List.append_nil] using Unfolds.entered hm he body .nil

theorem flattenSlot_unfolds (st : Store) (h : Handle) :
    st.Unfolds [] [.slot h] (st.flattenSlot h).pieces (st.flattenSlot h).log :=
  walkSlot_unfolds _ h List.nodup_nil (fun _ hi => nomatch hi) (Nat.lt_succ_self _)

/-! ## Flattening without a path -/

/-- The fragments with every slot in its place, whatever it is inside of. -/
inductive Flattens (st : Store) : List Fragment → List Piece → Prop
  | nil : Flattens st [] []
  | piece {p : Piece} {fs : List Fragment} {ps : List Piece} (rest : Flattens st fs ps) :
      Flattens st (.piece p :: fs) (p :: ps)
  | slot {h : Handle} {fs : List Fragment} {inner ps : List Piece}
      (body : Flattens st (st.builder h.slot).fragments.toList inner)
      (rest : Flattens st fs ps) :
      Flattens st (.slot h :: fs) (inner ++ (st.builder h.slot).stack.owed.map .endTag ++ ps)

theorem Flattens.unique {fs : List Fragment} {ps qs : List Piece} (h : st.Flattens fs ps)
    (h' : st.Flattens fs qs) : qs = ps := by
  induction h generalizing qs with
  | nil => cases h'; rfl
  | piece _ ih =>
    cases h' with
    | piece rest => rw [ih rest]
  | slot _ _ ihb ihr =>
    cases h' with
    | slot body rest => rw [ihb body, ihr rest]

/-- Without cycles and edits, nothing is pruned: every slot of the path reaches the fragments, so
none of them stands there again. -/
theorem Unfolds.flattens {path : List SlotId} {fs : List Fragment} {ps : List Piece}
    {log : List Message} (h : st.Unfolds path fs ps log) (ha : st.Acyclic)
    (he : ∀ i, st.isEdited i = false)
    (hp : ∀ i ∈ path, ∀ j ∈ slotsOf fs, st.Reaches i j) : st.Flattens fs ps ∧ log = [] := by
  induction h with
  | nil => exact ⟨.nil, rfl⟩
  | piece _ ih =>
    obtain ⟨rest, rfl⟩ := ih hp
    exact ⟨.piece rest, rfl⟩
  | insideItself hm => exact absurd (hp _ hm _ List.mem_cons_self) (ha _)
  | edited _ hed => rw [he] at hed; cases hed
  | @entered path h fs _ _ _ _ _ _ _ _ ihb ihr =>
    have hbody : ∀ i ∈ h.slot :: path, ∀ j ∈ slotsOf (st.builder h.slot).fragments.toList,
        st.Reaches i j := by
      intro i hi j hj
      rcases List.mem_cons.mp hi with rfl | hi
      · exact .single hj
      · exact (hp i hi _ List.mem_cons_self).tail hj
    obtain ⟨body, rfl⟩ := ihb hbody
    obtain ⟨rest, rfl⟩ := ihr fun i hi j hj => hp i hi j (List.mem_cons_of_mem _ hj)
    exact ⟨.slot body rest, rfl⟩

end Store

/-! ## Rendering -/

namespace Builder

variable {b : Builder} {st : Store}

/-- The builder's fragments unfold, and the end tags that it owes follow. -/
def Unfolds (b : Builder) (st : Store) (ps : List Piece) (log : List Message) : Prop :=
  ∃ body, st.Unfolds [] b.fragments.toList body log ∧ ps = body ++ b.stack.owed.map .endTag

/-- The builder's fragments flatten, and the end tags that it owes follow. -/
def Flattens (b : Builder) (st : Store) (ps : List Piece) : Prop :=
  ∃ body, st.Flattens b.fragments.toList body ∧ ps = body ++ b.stack.owed.map .endTag

theorem unfolds_flatten (b : Builder) (st : Store) :
    b.Unfolds st (st.flatten b).pieces (st.flatten b).log :=
  ⟨_, Store.walkFragments_unfolds (Store.marks_walkSlot st _) (Store.flattenSlot_unfolds st) _, rfl⟩

theorem Unfolds.unique {ps qs : List Piece} {log log' : List Message} (h : b.Unfolds st ps log)
    (h' : b.Unfolds st qs log') : qs = ps ∧ log' = log := by
  obtain ⟨body, hb, rfl⟩ := h
  obtain ⟨body', hb', rfl⟩ := h'
  obtain ⟨rfl, rfl⟩ := hb.unique hb'
  exact ⟨rfl, rfl⟩

theorem unfolds_iff {ps : List Piece} {log : List Message} :
    b.Unfolds st ps log ↔ ps = (st.flatten b).pieces ∧ log = (st.flatten b).log := by
  constructor
  · exact (b.unfolds_flatten st).unique
  · rintro ⟨rfl, rfl⟩
    exact b.unfolds_flatten st

theorem Unfolds.flattens {ps : List Piece} {log : List Message} (h : b.Unfolds st ps log)
    (ha : st.Acyclic) (he : ∀ i, st.isEdited i = false) : b.Flattens st ps ∧ log = [] := by
  obtain ⟨body, hb, rfl⟩ := h
  obtain ⟨hf, hl⟩ := hb.flattens ha he fun _ hi => nomatch hi
  exact ⟨⟨body, hf, rfl⟩, hl⟩

theorem Flattens.unique {ps qs : List Piece} (h : b.Flattens st ps) (h' : b.Flattens st qs) :
    qs = ps := by
  obtain ⟨body, hb, rfl⟩ := h
  obtain ⟨body', hb', rfl⟩ := h'
  rw [hb.unique hb']

end Builder

theorem Handle.unfolds_iff {h : Handle} {st : Store} {ps : List Piece} {log : List Message} :
    st.Unfolds [] [.slot h] ps log ↔
      ps = (st.flattenSlot h).pieces ∧ log = (st.flattenSlot h).log := by
  constructor
  · exact (Store.flattenSlot_unfolds st h).unique
  · rintro ⟨rfl, rfl⟩
    exact Store.flattenSlot_unfolds st h

/-- **Rendering is unfolding.** Whatever the slots contain and whichever of them are being edited,
the rendering of a builder or handle is the text of its one unfolding, with that unfolding's
warnings; no slot stays marked, and a walk from the marks that are left comes to the same. Where no
slot contains itself and none is edited, the rendering has every slot in full, without warnings. -/
theorem render_eq_unfolding (st : Store) :
    (∀ b : Builder, ∃ ps log, (∀ qs log', b.Unfolds st qs log' ↔ qs = ps ∧ log' = log) ∧
      b.render st = ⟨Piece.render ps, log⟩ ∧ (st.flatten b).marks = [] ∧
      Store.walkBuilder (st.walkSlot st.depthBound) b (st.flatten b).marks = st.flatten b) ∧
    (∀ h : Handle, ∃ ps log,
      (∀ qs log', st.Unfolds [] [.slot h] qs log' ↔ qs = ps ∧ log' = log) ∧
      h.render st = ⟨Piece.render ps, log⟩ ∧ (st.flattenSlot h).marks = [] ∧
      st.walkSlot st.depthBound h (st.flattenSlot h).marks = st.flattenSlot h) ∧
    (st.Acyclic → (∀ i, st.isEdited i = false) →
      (∀ b : Builder, ∃ ps, (∀ qs, b.Flattens st qs ↔ qs = ps) ∧
        b.render st = ⟨Piece.render ps, []⟩) ∧
      ∀ h : Handle, ∃ ps, (∀ qs, st.Flattens [.slot h] qs ↔ qs = ps) ∧
        h.render st = ⟨Piece.render ps, []⟩) := by
  have hb (b : Builder) : (st.flatten b).marks = [] :=
    Store.marks_walkBuilder (Store.marks_walkSlot st _) b []
  have hh (h : Handle) : (st.flattenSlot h).marks = [] := Store.marks_walkSlot st _ h []
  refine ⟨?_, ?_, ?_⟩
  · intro b
    refine ⟨_, _, fun qs log' => Builder.unfolds_iff, rfl, hb b, ?_⟩
    rw [hb]
    rfl
  · intro h
    refine ⟨_, _, fun qs log' => Handle.unfolds_iff, rfl, hh h, ?_⟩
    rw [hh]
    rfl
  · intro ha he
    constructor
    · intro b
      obtain ⟨hf, hl⟩ := (b.unfolds_flatten st).flattens ha he
      exact ⟨_, fun qs => ⟨hf.unique, fun hq => hq ▸ hf⟩, Logged.ext rfl hl⟩
    · intro h
      have outside : ∀ i ∈ ([] : List SlotId), ∀ j ∈ slotsOf [.slot h], st.Reaches i j :=
        fun _ hi => nomatch hi
      obtain ⟨hf, hl⟩ := (Store.flattenSlot_unfolds st h).flattens ha he outside
      exact ⟨_, fun qs => ⟨hf.unique, fun hq => hq ▸ hf⟩, Logged.ext rfl hl⟩

/-- A slot with a text in it. -/
def oneSlot : Store :=
  ⟨#[{ builder := { name := "s", fragments := #[.piece (.text "a")] } }]⟩

/-- The first slot, twice in a paragraph that is left open. -/
def twice : Builder where
  name := "b"
  fragments := #[.piece (.startTag { name := "div" }), .slot ⟨"s", 0, true⟩, .slot ⟨"s", 0, true⟩]
  stack := { pending := some ⟨"div", 0⟩ }

theorem slotsOf_oneSlot (i : SlotId) : slotsOf (oneSlot.builder i).fragments.toList = [] := by
  cases i with
  | zero => rfl
  | succ i =>
    have outside : oneSlot.size ≤ i + 1 := Nat.le_add_left 1 i
    rw [Store.builder_of_size_le outside]
    rfl

theorem acyclic_oneSlot : oneSlot.Acyclic := by
  intro i h
  obtain ⟨j, _, last⟩ := Relation.TransGen.tail'_iff.mp h
  rw [Store.Leads, slotsOf_oneSlot] at last
  cases last

theorem isEdited_oneSlot (i : SlotId) : oneSlot.isEdited i = false := by
  cases i with
  | zero => rfl
  | succ i => simp [Store.isEdited, Store.slot, oneSlot]

theorem render_eq_unfolding_twice :
    oneSlot.Acyclic ∧ (∀ i, oneSlot.isEdited i = false) ∧
    twice.render oneSlot = ⟨"<div>aa</div>", []⟩ ∧
    ∃ ps, (∀ qs, twice.Flattens oneSlot qs ↔ qs = ps) ∧
      twice.render oneSlot = ⟨Piece.render ps, []⟩ :=
  ⟨acyclic_oneSlot, isEdited_oneSlot, Logged.ext (by decide +kernel) (by decide +kernel),
    ((render_eq_unfolding oneSlot).2.2 acyclic_oneSlot isEdited_oneSlot).1 twice⟩

end Hypertext
