import Hypertext.Proofs.Rendering.Repeats
import Hypertext.Proofs.Session.Sound

/-! # What surrounds a slot

Where no slot contains itself and none is edited, a row of fragments flattens to what stands around
the positions of a slot, and the slot's own pieces at each of them. What stands around does not
depend on what the slot holds, so a call on a handle changes renderings only at these positions. -/

namespace Hypertext

/-! ## Rows with holes -/

namespace Piece

/-- The row with the pieces in each of its holes. -/
def fill (ps : List Piece) (row : List (Option Piece)) : List Piece :=
  row.flatMap fun
    | some p => [p]
    | none => ps

@[simp] theorem fill_nil (ps : List Piece) : fill ps [] = [] := rfl

@[simp] theorem fill_some (ps : List Piece) (p : Piece) (row : List (Option Piece)) :
    fill ps (some p :: row) = p :: fill ps row := rfl

@[simp] theorem fill_none (ps : List Piece) (row : List (Option Piece)) :
    fill ps (none :: row) = ps ++ fill ps row := rfl

@[simp] theorem fill_append (ps : List Piece) (row more : List (Option Piece)) :
    fill ps (row ++ more) = fill ps row ++ fill ps more :=
  List.flatMap_append

@[simp] theorem fill_map_some (ps qs : List Piece) : fill ps (qs.map some) = qs := by
  induction qs with
  | nil => rfl
  | cons q qs ih => rw [List.map_cons, fill_some, ih]

theorem fill_endTags (ps : List Piece) (names : List String) :
    fill ps (names.map (some ∘ endTag)) = names.map endTag := by
  rw [← List.map_map, fill_map_some]

theorem count_none_endTags (names : List String) :
    (names.map (some ∘ endTag)).count none = 0 :=
  List.count_eq_zero.mpr (by simp)

/-- The markup before, between and behind the holes. -/
def parts : List (Option Piece) → List String
  | [] => [""]
  | some p :: row => (parts row).modifyHead (p.html ++ ·)
  | none :: row => "" :: parts row

theorem length_parts (row : List (Option Piece)) : (parts row).length = row.count none + 1 := by
  induction row with
  | nil => rfl
  | cons hole row ih => cases hole <;> simp [parts, ih]

theorem render_fill (ps : List Piece) (row : List (Option Piece)) :
    render (fill ps row) = (render ps).intercalate (parts row) := by
  induction row with
  | nil => simp [parts, render]
  | cons hole row ih =>
    cases hole with
    | some p =>
      have hne : parts row ≠ [] := by simp [← List.length_pos_iff, length_parts]
      obtain ⟨t, ts, ht⟩ := List.exists_cons_of_ne_nil hne
      rw [fill_some, render_cons, ih, parts, ht, List.modifyHead_cons,
        String.intercalate_cons_append]
    | none =>
      have hne : parts row ≠ [] := by simp [← List.length_pos_iff, length_parts]
      rw [fill_none, render_append, ih, parts, String.intercalate_cons_of_ne_nil hne,
        String.empty_append]

end Piece

namespace Store

variable {st st' : Store} {i : SlotId}

/-! ## Slots in a flattening -/

/-- The slots that flattening comes to, in order and as often as it comes to them. -/
inductive Visits (st : Store) : List Fragment → List SlotId → Prop
  | nil : Visits st [] []
  | piece {p : Piece} {fs : List Fragment} {is : List SlotId} (rest : Visits st fs is) :
      Visits st (.piece p :: fs) is
  | slot {h : Handle} {fs : List Fragment} {inner is : List SlotId}
      (body : Visits st (st.builder h.slot).fragments.toList inner) (rest : Visits st fs is) :
      Visits st (.slot h :: fs) (h.slot :: inner ++ is)

theorem Visits.unique {fs : List Fragment} {is js : List SlotId} (h : st.Visits fs is)
    (h' : st.Visits fs js) : js = is := by
  induction h generalizing js with
  | nil => cases h'; rfl
  | piece _ ih =>
    cases h' with
    | piece rest => exact ih rest
  | slot _ _ ihb ihr =>
    cases h' with
    | slot body rest => rw [ihb body, ihr rest]

theorem Flattens.visits {fs : List Fragment} {ps : List Piece} (h : st.Flattens fs ps) :
    ∃ is, st.Visits fs is := by
  induction h with
  | nil => exact ⟨_, .nil⟩
  | piece _ ih =>
    obtain ⟨is, rest⟩ := ih
    exact ⟨is, .piece rest⟩
  | slot _ _ ihb ihr =>
    obtain ⟨inner, body⟩ := ihb
    obtain ⟨is, rest⟩ := ihr
    exact ⟨_, .slot body rest⟩

/-- What flattening comes to stands there or is reached. -/
theorem Visits.reached {fs : List Fragment} {is : List SlotId} (h : st.Visits fs is) :
    ∀ j ∈ is, ∃ k ∈ slotsOf fs, k = j ∨ st.Reaches k j := by
  induction h with
  | nil => exact fun j hj => nomatch hj
  | piece _ ih => exact ih
  | @slot h fs inner is _ _ ihb ihr =>
    intro j hj
    rcases List.mem_append.mp hj with hj | hj
    · refine ⟨h.slot, List.mem_cons_self, ?_⟩
      rcases List.mem_cons.mp hj with rfl | hj
      · exact .inl rfl
      · exact .inr (reaches_iff.mpr (ihb j hj))
    · obtain ⟨k, hk, hkj⟩ := ihr j hj
      exact ⟨k, List.mem_cons_of_mem _ hk, hkj⟩

/-! ## The frame of a slot -/

/-- The flattened fragments, with a hole wherever the slot `i` stands. -/
inductive Frames (st : Store) (i : SlotId) : List Fragment → List (Option Piece) → Prop
  | nil : Frames st i [] []
  | piece {p : Piece} {fs : List Fragment} {row : List (Option Piece)} (rest : Frames st i fs row) :
      Frames st i (.piece p :: fs) (some p :: row)
  | hole {h : Handle} {fs : List Fragment} {row : List (Option Piece)} (hi : h.slot = i)
      (rest : Frames st i fs row) : Frames st i (.slot h :: fs) (none :: row)
  | slot {h : Handle} {fs : List Fragment} {inner row : List (Option Piece)} (hi : h.slot ≠ i)
      (body : Frames st i (st.builder h.slot).fragments.toList inner) (rest : Frames st i fs row) :
      Frames st i (.slot h :: fs)
        (inner ++ (st.builder h.slot).stack.owed.map (some ∘ .endTag) ++ row)

theorem Flattens.frames {fs : List Fragment} {ps : List Piece} (h : st.Flattens fs ps)
    (i : SlotId) : ∃ row, st.Frames i fs row := by
  induction h with
  | nil => exact ⟨_, .nil⟩
  | piece _ ih =>
    obtain ⟨row, rest⟩ := ih
    exact ⟨_, .piece rest⟩
  | @slot h _ _ _ _ _ ihb ihr =>
    obtain ⟨inner, body⟩ := ihb
    obtain ⟨row, rest⟩ := ihr
    by_cases hi : h.slot = i
    · exact ⟨_, .hole hi rest⟩
    · exact ⟨_, .slot hi body rest⟩

/-- The frame stays as it is when only the slot changes. -/
theorem Frames.of_others {fs : List Fragment} {row : List (Option Piece)}
    (h : st.Frames i fs row) (ho : ∀ j ≠ i, st'.builder j = st.builder j) :
    st'.Frames i fs row := by
  induction h with
  | nil => exact .nil
  | piece _ ih => exact .piece ih
  | hole hi _ ih => exact .hole hi ih
  | slot hi _ _ ihb ihr =>
    rw [← ho _ hi] at ihb ⊢
    exact .slot hi ihb ihr

/-- The frame with the slot's pieces in its holes is the flattening. -/
theorem Frames.flattens {fs : List Fragment} {row : List (Option Piece)}
    (h : st.Frames i fs row) {inner : List Piece}
    (hi : st.Flattens (st.builder i).fragments.toList inner) :
    st.Flattens fs (Piece.fill (inner ++ (st.builder i).stack.owed.map .endTag) row) := by
  induction h with
  | nil => exact .nil
  | piece _ ih => exact .piece ih
  | hole hs _ ih =>
    subst hs
    exact .slot hi ih
  | slot _ _ _ ihb ihr =>
    rw [Piece.fill_append, Piece.fill_append, Piece.fill_endTags]
    exact .slot ihb ihr

/-- There is a hole for every time that flattening comes to the slot: it does not come to it inside
the slot itself. -/
theorem Frames.count_none {fs : List Fragment} {row : List (Option Piece)} {is : List SlotId}
    (h : st.Frames i fs row) (ha : st.Acyclic) (hv : st.Visits fs is) :
    row.count none = is.count i := by
  induction h generalizing is with
  | nil => cases hv; rfl
  | piece _ ih =>
    cases hv with
    | piece rest => simpa using ih rest
  | hole hi _ ih =>
    cases hv with
    | @slot _ _ inner _ body rest =>
      -- what flattening comes to inside the slot is reached from it, so it is not the slot again
      have inside : inner.count i = 0 := by
        refine List.count_eq_zero.mpr ?_
        intro hm
        rw [hi] at body
        exact ha i (reaches_iff.mpr (body.reached i hm))
      simp [hi, inside, ih rest]
  | slot hi _ _ ihb ihr =>
    cases hv with
    | slot body rest => simp [hi, Piece.count_none_endTags, ihb body, ihr rest]

end Store

/-! ## Rendering around a slot -/

section Rendering

variable {st st' : Store}

/-- A handle is rendered as its slot's builder. -/
theorem Handle.render_eq (ha : st.Acyclic) (he : ∀ i, st.isEdited i = false) (h : Handle) :
    h.render st = (st.builder h.slot).render st :=
  h.render_of_not_finds (he h.slot) fun found => ha h.slot found.reaches

/-- What is around the slot stays around it, whatever the slot comes to hold. -/
theorem Builder.render_frame (ha : st.Acyclic) (he : ∀ i, st.isEdited i = false) (b : Builder)
    (h : Handle) :
    ∃ is parts, st.Visits b.fragments.toList is ∧ parts.length = is.count h.slot + 1 ∧
      ∀ st' : Store, (∀ j ≠ h.slot, st'.builder j = st.builder j) → st'.Acyclic →
        (∀ i, st'.isEdited i = false) →
        b.render st' = ⟨(h.render st').value.intercalate parts, []⟩ := by
  obtain ⟨⟨body, hbody, -⟩, -⟩ := (b.unfolds_flatten st).flattens ha he
  obtain ⟨is, hv⟩ := hbody.visits
  obtain ⟨row, hrow⟩ := hbody.frames h.slot
  have count : (row ++ b.stack.owed.map (some ∘ Piece.endTag)).count none = is.count h.slot := by
    rw [List.count_append, hrow.count_none ha hv, Piece.count_none_endTags, Nat.add_zero]
  refine ⟨is, Piece.parts (row ++ b.stack.owed.map (some ∘ Piece.endTag)), hv, ?_, ?_⟩
  · rw [Piece.length_parts, count]
  · intro st' ho ha' he'
    obtain ⟨⟨inner, hinner, hi⟩, -⟩ := ((st'.builder h.slot).unfolds_flatten st').flattens ha' he'
    obtain ⟨⟨body', hbody', hb⟩, hl⟩ := (b.unfolds_flatten st').flattens ha' he'
    have filled := (hrow.of_others ho).flattens hinner
    rw [← hi] at filled
    apply Logged.ext
    · rw [Handle.render_eq ha' he']
      simp only [Builder.render, Walk.logged, Walk.html]
      rw [← Piece.render_fill, Piece.fill_append, Piece.fill_endTags, hb, filled.unique hbody']
    · exact hl

end Rendering

/-! ## Calls on a handle -/

namespace HandleCall

variable {st : Store} {h : Handle} {call : HandleCall Content}

theorem slot_run_of_ne (call : HandleCall Content) (h : Handle) (st : Store) {j : SlotId}
    (hj : j ≠ h.slot) : (call.run h st).state.slot j = st.slot j := by
  rcases state_cases call h st with hst | ⟨_, _, base, _, hst⟩
  · rw [hst]
  · rw [hst, Store.put, Store.slot_modify, if_neg fun hji => hj hji.1]

/-- Content that does not reach the slot is taken, if the slot is not being edited. -/
theorem refusal_run_eq_none (he : st.isEdited h.slot = false)
    (hc : ∀ c ∈ call.content?, ¬ c.Reaches st h.slot) : (call.run h st).refusal = none := by
  rcases run_cases call h st with ⟨⟨c, hmem, hf⟩, _⟩ | ⟨_, ⟨he', _⟩ | ⟨_, hn, _⟩⟩
  · exact absurd hf.reaches (hc c hmem)
  · rw [he] at he'
    cases he'
  · exact hn

end HandleCall

namespace Session

/-- **A placeholder changes only its positions.** In a session in which no slot contains itself and
none is being edited, let a call bring to a slot content that does not reach it, or empty it. The
call is not refused, and it changes nothing but the builder of that slot. For every builder there
are strings, one more than the times that flattening the builder comes to the slot, such that after
any of these calls the builder is rendered as the strings with the slot's rendering between them.
The strings are the same in all stores that differ in this slot only. -/
theorem call_changes_positions {s : Session} (hs : s.Reachable) (ha : s.store.Acyclic)
    (he : ∀ i, s.store.isEdited i = false) (h : Handle) :
    (∀ call : HandleCall Content, (∀ c ∈ call.content?, ¬ c.Reaches s.store h.slot) →
      (s.callHandle h call).refusal = none ∧
      (∀ j ≠ h.slot, (s.callHandle h call).state.store.slot j = s.store.slot j) ∧
      (∀ name, (s.callHandle h call).state.builder? name = s.builder? name) ∧
      (s.callHandle h call).state.builders = s.builders ∧
      (s.callHandle h call).state.handles = s.handles ∧
      (s.callHandle h call).state.registries = s.registries ∧
      ∀ g : Handle, g.slot ≠ h.slot → g.render (s.callHandle h call).state.store =
        (s.store.builder g.slot).render (s.callHandle h call).state.store) ∧
    ∀ b : Builder, ∃ is parts, (∀ js, s.store.Visits b.fragments.toList js ↔ js = is) ∧
      parts.length = is.count h.slot + 1 ∧
      (∀ st' : Store, (∀ j ≠ h.slot, st'.slot j = s.store.slot j) → st'.Acyclic →
        (∀ i, st'.isEdited i = false) →
          b.render st' = ⟨(h.render st').value.intercalate parts, []⟩) ∧
      ∀ call : HandleCall Content, (∀ c ∈ call.content?, ¬ c.Reaches s.store h.slot) →
        b.render (s.callHandle h call).state.store =
          ⟨(h.render (s.callHandle h call).state.store).value.intercalate parts, []⟩ := by
  have others (call : HandleCall Content) {j : SlotId} (hj : j ≠ h.slot) :
      (s.callHandle h call).state.store.slot j = s.store.slot j :=
    call.slot_run_of_ne h s.store hj
  have acyclic {call : HandleCall Content} (hc : ∀ c ∈ call.content?, ¬ c.Reaches s.store h.slot) :
      (s.callHandle h call).state.store.Acyclic :=
    HandleCall.acyclic_run ha fun c hmem hr => absurd hr (hc c hmem)
  have unedited (call : HandleCall Content) (i : SlotId) :
      (s.callHandle h call).state.store.isEdited i = false :=
    ((call.respects_run h s.store).isEdited i).trans (he i)
  constructor
  · intro call hc
    refine ⟨HandleCall.refusal_run_eq_none (he h.slot) hc, fun j => others call, ?_, rfl, rfl, rfl,
      ?_⟩
    · intro name
      unfold Session.builder?
      refine Option.map_congr fun site hf => ?_
      cases site with
      | own b => rfl
      | slot i =>
        -- no variable stands for a slot's builder, as none is being edited
        have edited := hs.sound.edited i (mem_sites_of_find? hf)
        rw [he] at edited
        cases edited
    · intro g hg
      rw [Handle.render_eq (acyclic hc) (unedited call), Store.builder, others call hg]
      rfl
  · intro b
    obtain ⟨is, parts, hv, hlen, hrender⟩ := Builder.render_frame ha he b h
    have hrender' (st' : Store) (ho : ∀ j ≠ h.slot, st'.slot j = s.store.slot j) :=
      hrender st' fun j hj => congrArg Slot.builder (ho j hj)
    refine ⟨is, parts, fun js => ⟨hv.unique, fun hj => hj ▸ hv⟩, hlen, hrender', ?_⟩
    intro call hc
    exact hrender' _ (fun j => others call) (acyclic hc) (unedited call)

/-- A box with a placeholder that stands in it twice. -/
def repeated : List Action :=
  [.perform (.create "b" none),
    .perform (.call "b" (.tag "div")),
    .perform (.call "b" (.place "item")),
    .perform (.placeholder "b" "item" "h"),
    .perform (.call "b" (.append (.handle "h")))]

def repeatedHandle : Handle where
  name := "item"
  slot := 0
  isPlaceholder := true

def repeatedBuilder : Builder where
  name := "E Builder"
  fragments := #[.piece (.startTag { name := "div" }), .slot repeatedHandle, .slot repeatedHandle]
  placeholders := { entries := [("item", repeatedHandle)] }
  stack := { pending := some ⟨"div", 0⟩ }

theorem call_changes_positions_repeated :
    (run {} repeated).Reachable ∧ (run {} repeated).store.Acyclic ∧
    (∀ i, (run {} repeated).store.isEdited i = false) ∧
    (run {} repeated).builder? "b" = some repeatedBuilder ∧
    (∀ c ∈ (HandleCall.set (.text "z")).content?,
      ¬ Content.Reaches c (run {} repeated).store repeatedHandle.slot) ∧
    let after := ((run {} repeated).callHandle repeatedHandle (.set (.text "z"))).state.store
    ∃ parts : List String, parts.length = 3 ∧
      repeatedBuilder.render after = ⟨"z".intercalate parts, []⟩ ∧
      (repeatedBuilder.render after).value = "<div>zz</div>" := by
  have reached := Reachable.start.run repeated
  have hstore : (run {} repeated).store = ⟨#[{ builder := { name := "item" } }]⟩ := by
    decide +kernel
  have bare (i : SlotId) : ((run {} repeated).store.builder i).slots = [] := by
    rw [hstore]
    cases i with
    | zero => rfl
    | succ i => rw [Store.builder_of_size_le (Nat.le_add_left 1 i)]; rfl
  have acyclic : (run {} repeated).store.Acyclic := by
    intro i hi
    obtain ⟨j, hj, _⟩ := Store.reaches_iff.mp hi
    rw [bare] at hj
    cases hj
  have unedited (i : SlotId) : (run {} repeated).store.isEdited i = false := by
    rw [hstore]
    cases i with
    | zero => rfl
    | succ i => simp [Store.isEdited, Store.slot]
  have apart : ∀ c ∈ (HandleCall.set (.text "z")).content?,
      ¬ Content.Reaches c (run {} repeated).store repeatedHandle.slot := by
    rintro _ ⟨⟩ ⟨j, hj, _⟩
    cases hj
  obtain ⟨_, positions⟩ := call_changes_positions reached acyclic unedited repeatedHandle
  obtain ⟨is, parts, hv, hlen, _, hrender⟩ := positions repeatedBuilder
  have empty : (run {} repeated).store.Visits
      ((run {} repeated).store.builder repeatedHandle.slot).fragments.toList [] := by
    rw [hstore]
    exact .nil
  have visits : (run {} repeated).store.Visits repeatedBuilder.fragments.toList
      (repeatedHandle.slot :: [] ++ (repeatedHandle.slot :: [] ++ [])) :=
    .piece (.slot empty (.slot empty .nil))
  rw [← (hv _).mp visits] at hlen
  refine ⟨reached, acyclic, unedited, by decide +kernel, apart, parts, hlen, ?_, by decide +kernel⟩
  have slot : (repeatedHandle.render ((run {} repeated).callHandle repeatedHandle
      (.set (.text "z"))).state.store).value = "z" := by
    decide +kernel
  rw [hrender _ apart, slot]

end Session

end Hypertext
