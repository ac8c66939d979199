import Hypertext.Proofs.Rendering.Endings
import Hypertext.Proofs.Slots.Search

/-! # A slot inside itself

A handle's rendering is inside the slot from its beginning, and the rendering of the slot's builder
is not. So where the slot is found behind itself, the builder's rendering shows it again, and the
handle's rendering passes over it. -/

namespace Hypertext

/-- A part of what unfolded: a piece, or all that a slot showed again. -/
inductive Part where
  | once (p : Piece)
  | again (ps : List Piece)

namespace Part

/-- The pieces of all parts. -/
def full (row : List Part) : List Piece :=
  row.flatMap fun
    | once p => [p]
    | again ps => ps

/-- The pieces without what was shown again. -/
def kept (row : List Part) : List Piece :=
  row.flatMap fun
    | once p => [p]
    | again _ => []

/-- What was shown again. -/
def repeats (row : List Part) : List (List Piece) :=
  row.filterMap fun
    | once _ => none
    | again ps => some ps

@[simp] theorem full_append (row more : List Part) : full (row ++ more) = full row ++ full more :=
  List.flatMap_append

@[simp] theorem kept_append (row more : List Part) : kept (row ++ more) = kept row ++ kept more :=
  List.flatMap_append

@[simp] theorem repeats_append (row more : List Part) :
    repeats (row ++ more) = repeats row ++ repeats more :=
  List.filterMap_append

@[simp] theorem full_once (ps : List Piece) : full (ps.map once) = ps := by
  induction ps with
  | nil => rfl
  | cons p ps ih => simpa [full] using ih

@[simp] theorem kept_once (ps : List Piece) : kept (ps.map once) = ps := by
  induction ps with
  | nil => rfl
  | cons p ps ih => simpa [kept] using ih

@[simp] theorem repeats_once (ps : List Piece) : repeats (ps.map once) = [] := by
  simp [repeats, List.filterMap_map]

/-- Nothing is left out where nothing is shown again. -/
theorem kept_eq_full {row : List Part} (h : repeats row = []) : kept row = full row := by
  induction row with
  | nil => rfl
  | cons part row ih =>
    cases part with
    | once p => exact congrArg (p :: ·) (ih h)
    | again ps => cases h

/-- The text of all parts is as long as that of the kept ones and of the repeats together. -/
theorem length_full (row : List Part) :
    (Piece.render (full row)).length =
      (Piece.render (kept row)).length + (Piece.render (repeats row).flatten).length := by
  induction row with
  | nil => rfl
  | cons part row ih =>
    cases part with
    | once p =>
      change (Piece.render (p :: full row)).length = (Piece.render (p :: kept row)).length + _
      rw [Piece.render_cons, Piece.render_cons, String.length_append, String.length_append, ih,
        Nat.add_assoc]
      rfl
    | again ps =>
      change (Piece.render (ps ++ full row)).length =
        (Piece.render (kept row)).length + (Piece.render (ps ++ (repeats row).flatten)).length
      rw [Piece.render_append, Piece.render_append, String.length_append, String.length_append, ih]
      exact Nat.add_left_comm _ _ _

/-- The repeats leave the text as it is only if they have none. -/
theorem render_kept_iff {row : List Part} :
    Piece.render (kept row) = Piece.render (full row) ↔
      ∀ ps ∈ repeats row, Piece.render ps = "" := by
  constructor
  · intro same ps hps
    have lengths := length_full row
    rw [same] at lengths
    obtain ⟨front, back, split⟩ := List.append_of_mem hps
    rw [split, List.flatten_append, List.flatten_cons, Piece.render_append, Piece.render_append,
      String.length_append, String.length_append] at lengths
    have zero : (Piece.render ps).length = 0 := by omega
    exact String.length_eq_zero_iff.mp zero
  · intro bare
    induction row with
    | nil => rfl
    | cons part row ih =>
      cases part with
      | once p =>
        change Piece.render (p :: kept row) = Piece.render (p :: full row)
        rw [Piece.render_cons, Piece.render_cons, ih bare]
      | again ps =>
        obtain ⟨here, behind⟩ := List.forall_mem_cons.mp bare
        change Piece.render (kept row) = Piece.render (ps ++ full row)
        rw [Piece.render_append, here, String.empty_append, ih behind]

end Part

namespace Store

variable {st : Store} {i : SlotId} {path : List SlotId}

/-- The pieces are what the slot unfolds to inside some slots, it being none of them. -/
def Repeats (st : Store) (i : SlotId) (ps : List Piece) : Prop :=
  ∃ h path log, h.slot = i ∧ i ∉ path ∧ st.Unfolds path [.slot h] ps log

/-- The slot `j` is found from the slot `i` past none of the path. -/
def FindsOff (st : Store) (path : List SlotId) : SlotId → SlotId → Prop :=
  Relation.TransGen fun j k => j ∉ path ∧ st.Shows j k

theorem findsOff_nil {j k : SlotId} : st.FindsOff [] j k ↔ st.Finds j k := by
  simp [FindsOff, Finds]

theorem not_findsOff_of_mem {j k : SlotId} (h : j ∈ path) : ¬ st.FindsOff path j k := by
  intro found
  obtain ⟨_, ⟨off, _⟩, _⟩ := Relation.TransGen.head'_iff.mp found
  exact off h

theorem not_findsOff_of_edited {j k : SlotId} (h : st.isEdited j = true) :
    ¬ st.FindsOff path j k := by
  intro found
  obtain ⟨_, ⟨_, unedited, _⟩, _⟩ := Relation.TransGen.head'_iff.mp found
  rw [h] at unedited
  cases unedited

/-- What is found from a slot is found behind it, and not past it again. -/
theorem findsOff_iff {j k : SlotId} (hj : j ∉ path) (he : st.isEdited j = false) :
    st.FindsOff path j k ↔
      ∃ l ∈ slotsOf (st.builder j).fragments.toList, l = k ∨ st.FindsOff (j :: path) l k := by
  constructor
  · intro found
    obtain ⟨l, ⟨_, _, leads⟩, behind⟩ := leave_once found
    refine ⟨l, leads, behind.imp_right fun off => ?_⟩
    refine Relation.TransGen.mono ?_ _ _ off
    rintro m n ⟨apart, off, shows⟩
    exact ⟨List.not_mem_cons_of_ne_of_not_mem apart off, shows⟩
  · rintro ⟨l, leads, rfl | off⟩
    · exact .single ⟨hj, he, leads⟩
    · refine .head ⟨hj, he, leads⟩ (Relation.TransGen.mono ?_ _ _ off)
      rintro m n ⟨off, shows⟩
      exact ⟨fun hm => off (List.mem_cons_of_mem _ hm), shows⟩

/-- What unfolded inside the slots of one path, with the slot `i` around it in the other. -/
structure Splits (st : Store) (i : SlotId) (path path' : List SlotId) (fs : List Fragment)
    (ps : List Piece) (log : List Message) (row : List Part) (log' : List Message) : Prop where
  full : Part.full row = ps
  kept : st.Unfolds path' fs (Part.kept row) log'
  repeats : ∀ inner ∈ Part.repeats row, st.Repeats i inner
  log : Part.repeats row = [] → log' = log
  found : Part.repeats row ≠ [] ↔ ∃ j ∈ slotsOf fs, j = i ∨ st.FindsOff path j i

/-- Inside one more slot, all unfolds as it does outside of it, but for what this slot showed. -/
theorem Unfolds.splits {path path' : List SlotId} {fs : List Fragment} {ps : List Piece}
    {log : List Message} (h : st.Unfolds path fs ps log) (he : st.isEdited i = false)
    (hi : i ∉ path) (hp : ∀ j, j ∈ path' ↔ j = i ∨ j ∈ path) :
    ∃ row log', st.Splits i path path' fs ps log row log' := by
  induction h generalizing path' with
  | nil => exact ⟨[], [], rfl, .nil, List.forall_mem_nil _, fun _ => rfl, by simp [Part.repeats]⟩
  | @piece path p fs ps log _ ih =>
    obtain ⟨row, log', rest⟩ := ih hi hp
    exact ⟨.once p :: row, log', congrArg (p :: ·) rest.full, .piece rest.kept, rest.repeats,
      rest.log, rest.found⟩
  | @insideItself path g fs ps log hm _ ih =>
    obtain ⟨row, log', rest⟩ := ih hi hp
    have other : g.slot ≠ i := ne_of_mem_of_not_mem hm hi
    refine ⟨row, .insideItself g.name :: log', rest.full,
      .insideItself ((hp _).mpr (.inr hm)) rest.kept, rest.repeats,
      fun none => congrArg _ (rest.log none), ?_⟩
    simp [rest.found, other, not_findsOff_of_mem hm]
  | @edited path g fs ps log hm hed _ ih =>
    obtain ⟨row, log', rest⟩ := ih hi hp
    have other : g.slot ≠ i := by
      rintro rfl
      rw [he] at hed
      cases hed
    have off : g.slot ∉ path' := fun hm' => ((hp _).mp hm').elim other hm
    refine ⟨row, .beingEdited g.name :: log', rest.full, .edited off hed rest.kept, rest.repeats,
      fun none => congrArg _ (rest.log none), ?_⟩
    simp [rest.found, other, not_findsOff_of_edited hed]
  | @entered path g fs inner ps innerLog log hm hed body _ ihb ihr =>
    obtain ⟨row, log', rest⟩ := ihr hi hp
    by_cases same : g.slot = i
    · -- the slot itself: all that it shows is shown again
      have whole := Unfolds.entered hm hed body .nil
      rw [List.append_nil] at whole
      refine ⟨.again _ :: row, .insideItself g.name :: log', congrArg (_ ++ ·) rest.full,
        .insideItself ((hp _).mpr (.inl same)) rest.kept,
        List.forall_mem_cons.mpr ⟨⟨g, path, _, same, hi, whole⟩, rest.repeats⟩,
        (nomatch ·), ?_⟩
      simp [Part.repeats, same]
    · have off : g.slot ∉ path' := fun hm' => ((hp _).mp hm').elim same hm
      have hp' (j : SlotId) : j ∈ g.slot :: path' ↔ j = i ∨ j ∈ g.slot :: path := by
        simp only [List.mem_cons, hp]
        tauto
      obtain ⟨inside, insideLog, inner⟩ :=
        ihb (List.not_mem_cons_of_ne_of_not_mem (Ne.symm same) hi) hp'
      refine ⟨inside ++ ((st.builder g.slot).stack.owed.map .endTag).map .once ++ row,
        insideLog ++ log', ?_, ?_, ?_, ?_, ?_⟩
      · rw [Part.full_append, Part.full_append, Part.full_once, inner.full, rest.full]
      · rw [Part.kept_append, Part.kept_append, Part.kept_once]
        exact .entered off hed inner.kept rest.kept
      · intro again hr
        rw [Part.repeats_append, Part.repeats_append, Part.repeats_once, List.append_nil] at hr
        exact (List.mem_append.mp hr).elim (inner.repeats again) (rest.repeats again)
      · intro none
        simp only [Part.repeats_append, Part.repeats_once, List.append_nil,
          List.append_eq_nil_iff] at none
        rw [inner.log none.1, rest.log none.2]
      · have here := (inner.found.trans (findsOff_iff hm hed (k := i)).symm)
        simp only [Part.repeats_append, Part.repeats_once, List.append_nil, ne_eq,
          List.append_eq_nil_iff, not_and_or, slotsOf_slot, List.exists_mem_cons_iff, same,
          false_or]
        exact or_congr here rest.found

/-- A slot is found from itself if it is among its fragments or found from one of them. -/
theorem finds_iff {i k : SlotId} (he : st.isEdited i = false) :
    st.Finds i k ↔ ∃ j ∈ slotsOf (st.builder i).fragments.toList, j = k ∨ st.Finds j k := by
  constructor
  · intro found
    obtain ⟨j, ⟨_, leads⟩, behind⟩ := Relation.TransGen.head'_iff.mp found
    exact ⟨j, leads, (Relation.reflTransGen_iff_eq_or_transGen.mp behind).imp_left Eq.symm⟩
  · rintro ⟨j, leads, rfl | behind⟩
    · exact .single ⟨he, leads⟩
    · exact .head ⟨he, leads⟩ behind

end Store

/-! ## Renderings -/

section Rendering

variable {st : Store} {h : Handle}

/-- The handle's rendering is that of the slot's builder without what the slot shows again, and it
shows something again just if it is found from itself. -/
theorem Handle.render_splits (he : st.isEdited h.slot = false) :
    ∃ row log, h.render st = ⟨Piece.render (Part.kept row), log⟩ ∧
      ((st.builder h.slot).render st).value = Piece.render (Part.full row) ∧
      (Part.repeats row = [] → log = ((st.builder h.slot).render st).log) ∧
      (∀ inner ∈ Part.repeats row, st.Repeats h.slot inner) ∧
      (Part.repeats row = [] ↔ ¬ st.Finds h.slot h.slot) := by
  obtain ⟨body, unfolds, pieces⟩ := (st.builder h.slot).unfolds_flatten st
  have inside (j : SlotId) : j ∈ [h.slot] ↔ j = h.slot ∨ j ∈ ([] : List SlotId) := by simp
  obtain ⟨row, log, splits⟩ := unfolds.splits he List.not_mem_nil inside
  have whole := Store.Unfolds.entered List.not_mem_nil he splits.kept .nil
  rw [List.append_nil, List.append_nil] at whole
  obtain ⟨shown, logged⟩ := whole.unique (st.flattenSlot_unfolds h)
  have found : Part.repeats row ≠ [] ↔ st.Finds h.slot h.slot := by
    rw [splits.found, Store.finds_iff he]
    simp only [Store.findsOff_nil]
  refine ⟨row ++ ((st.builder h.slot).stack.owed.map .endTag).map .once, log, ?_, ?_, ?_, ?_, ?_⟩
  · rw [Part.kept_append, Part.kept_once]
    exact Logged.ext (congrArg Piece.render shown) logged
  · rw [Part.full_append, Part.full_once, splits.full, ← pieces]
    rfl
  · intro none
    rw [Part.repeats_append, Part.repeats_once, List.append_nil] at none
    exact splits.log none
  · rw [Part.repeats_append, Part.repeats_once, List.append_nil]
    exact splits.repeats
  · rw [Part.repeats_append, Part.repeats_once, List.append_nil, ← found, not_not]

/-- A slot that is not found from itself is rendered as its builder. -/
theorem Handle.render_of_not_finds (he : st.isEdited h.slot = false)
    (hf : ¬ st.Finds h.slot h.slot) : h.render st = (st.builder h.slot).render st := by
  obtain ⟨row, log, rendered, whole, logged, _, found⟩ := h.render_splits he
  have none := found.mpr hf
  rw [rendered]
  apply Logged.ext
  · rw [whole, Part.kept_eq_full none]
  · exact logged none

/-- A slot that is being edited shows nothing. -/
theorem Handle.render_of_edited (he : st.isEdited h.slot = true) :
    h.render st = ⟨"", [.beingEdited h.name]⟩ := by
  have alone := Store.Unfolds.edited List.not_mem_nil he .nil
  obtain ⟨shown, logged⟩ := alone.unique (st.flattenSlot_unfolds h)
  exact Logged.ext (congrArg Piece.render shown) logged

end Rendering

end Hypertext
