import Hypertext.Proofs.Session.Actions
import Hypertext.Proofs.Slots.Acyclic

/-! # The search for a slot

The search is said once more without a bound on its depth, step by step and with the marks that it
sets and takes back. It leaves a slot as soon as it comes to the target there, and it does not look
behind the hit. In every store there is one way for it to go, and it ends with the marks that it
came with. -/

namespace Hypertext

namespace Store

/-- The search for the target goes through the fragments with the marks before it and after it. A
slot that it enters is marked, and the mark goes when it leaves, with a hit or without. -/
inductive Searches (st : Store) (target : SlotId) :
    Marks → List Fragment → Bool → Marks → Prop
  | nil {marks : Marks} : Searches st target marks [] false marks
  | piece {marks after : Marks} {p : Piece} {fs : List Fragment} {found : Bool}
      (rest : Searches st target marks fs found after) :
      Searches st target marks (.piece p :: fs) found after
  | same {marks : Marks} {h : Handle} {fs : List Fragment} (ht : h.slot = target) :
      Searches st target marks (.slot h :: fs) true marks
  | marked {marks after : Marks} {h : Handle} {fs : List Fragment} {found : Bool}
      (ht : h.slot ≠ target) (hm : h.slot ∈ marks)
      (rest : Searches st target marks fs found after) :
      Searches st target marks (.slot h :: fs) found after
  | edited {marks after : Marks} {h : Handle} {fs : List Fragment} {found : Bool}
      (ht : h.slot ≠ target) (hm : h.slot ∉ marks) (he : st.isEdited h.slot = true)
      (rest : Searches st target ((h.slot :: marks).erase h.slot) fs found after) :
      Searches st target marks (.slot h :: fs) found after
  | hit {marks inner : Marks} {h : Handle} {fs : List Fragment}
      (ht : h.slot ≠ target) (hm : h.slot ∉ marks) (he : st.isEdited h.slot = false)
      (body : Searches st target (h.slot :: marks) (st.builder h.slot).fragments.toList true inner) :
      Searches st target marks (.slot h :: fs) true (inner.erase h.slot)
  | miss {marks inner after : Marks} {h : Handle} {fs : List Fragment} {found : Bool}
      (ht : h.slot ≠ target) (hm : h.slot ∉ marks) (he : st.isEdited h.slot = false)
      (body : Searches st target (h.slot :: marks) (st.builder h.slot).fragments.toList false inner)
      (rest : Searches st target (inner.erase h.slot) fs found after) :
      Searches st target marks (.slot h :: fs) found after

variable {st : Store} {target : SlotId} {marks after : Marks} {fs : List Fragment}

/-- What is behind a hit is not looked at. -/
theorem Searches.append_of_hit (h : st.Searches target marks fs true after) (gs : List Fragment) :
    st.Searches target marks (fs ++ gs) true after := by
  generalize hb : true = found at h
  induction h with
  | nil => cases hb
  | piece _ ih => exact .piece (ih hb)
  | same ht => exact .same ht
  | marked ht hm _ ih => exact .marked ht hm (ih hb)
  | edited ht hm he _ ih => exact .edited ht hm he (ih hb)
  | hit ht hm he body => exact .hit ht hm he body
  | miss ht hm he body _ _ ih => exact .miss ht hm he body (ih hb)

theorem Searches.append_of_miss {mid : Marks} {gs : List Fragment} {found : Bool}
    (h : st.Searches target marks fs false mid) (hg : st.Searches target mid gs found after) :
    st.Searches target marks (fs ++ gs) found after := by
  generalize hb : false = missed at h
  induction h with
  | nil => exact hg
  | piece _ ih => exact .piece (ih hg hb)
  | same => cases hb
  | marked ht hm _ ih => exact .marked ht hm (ih hg hb)
  | edited ht hm he _ ih => exact .edited ht hm he (ih hg hb)
  | hit => cases hb
  | miss ht hm he body _ _ ih => exact .miss ht hm he body (ih hg hb)

/-- There is only one way for the search to go. -/
theorem Searches.unique {found found' : Bool} {after' : Marks}
    (h : st.Searches target marks fs found after) (h' : st.Searches target marks fs found' after') :
    found' = found ∧ after' = after := by
  induction h generalizing found' after' with
  | nil => cases h'; exact ⟨rfl, rfl⟩
  | piece _ ih =>
    cases h' with
    | piece rest => exact ih rest
  | same ht =>
    cases h' with
    | same => exact ⟨rfl, rfl⟩
    | marked ht' | edited ht' | hit ht' | miss ht' => exact absurd ht ht'
  | marked ht hm _ ih =>
    cases h' with
    | same ht' => exact absurd ht' ht
    | marked _ _ rest => exact ih rest
    | edited _ hm' | hit _ hm' | miss _ hm' => exact absurd hm hm'
  | edited ht hm he _ ih =>
    cases h' with
    | same ht' => exact absurd ht' ht
    | marked _ hm' => exact absurd hm' hm
    | edited _ _ _ rest => exact ih rest
    | hit _ _ he' | miss _ _ he' => rw [he] at he'; cases he'
  | hit ht hm he _ ih =>
    cases h' with
    | same ht' => exact absurd ht' ht
    | marked _ hm' => exact absurd hm' hm
    | edited _ _ he' => rw [he] at he'; cases he'
    | hit _ _ _ body =>
      obtain ⟨_, rfl⟩ := ih body
      exact ⟨rfl, rfl⟩
    | miss _ _ _ body => cases (ih body).1
  | miss ht hm he _ _ ihb ihr =>
    cases h' with
    | same ht' => exact absurd ht' ht
    | marked _ hm' => exact absurd hm' hm
    | edited _ _ he' => rw [he] at he'; cases he'
    | hit _ _ _ body => cases (ihb body).1
    | miss _ _ _ body rest =>
      obtain ⟨_, rfl⟩ := ihb body
      exact ihr rest

/-! ## The search with a bound -/

theorem searchFragments_searches {enter : Handle → Marks → Search}
    (hm : ∀ h marks, (enter h marks).marks = marks)
    (hs : ∀ h : Handle, h.slot ≠ target →
      st.Searches target marks [.slot h] (enter h marks).found marks)
    (fs : List Fragment) :
    st.Searches target marks fs (searchFragments target enter fs marks).found marks := by
  induction fs with
  | nil => exact .nil
  | cons f fs ih =>
    cases f with
    | piece p => exact .piece ih
    | slot h =>
      rw [searchFragments_slot, hm]
      by_cases ht : h.slot = target
      · rw [if_pos ht]
        exact .same ht
      · rw [if_neg ht]
        have first := hs h ht
        cases hf : (enter h marks).found with
        | true =>
          rw [hf] at first
          rw [if_pos rfl, hf]
          exact first.append_of_hit fs
        | false =>
          rw [hf] at first
          exact first.append_of_miss ih

/-- The depth that is left and the slots around are together more than all slots, so the search
stops at a mark before the depth is used up. -/
theorem searchSlot_searches (fuel : Nat) (h : Handle) (hd : marks.Nodup)
    (hb : ∀ i ∈ marks, i < st.size) (hf : st.size < fuel + marks.length) (ht : h.slot ≠ target) :
    st.Searches target marks [.slot h] (st.searchSlot target fuel h marks).found marks := by
  induction fuel generalizing h marks with
  | zero =>
    have := length_le_size hd hb
    omega
  | succ fuel ih =>
    by_cases hm : h.slot ∈ marks
    · rw [searchSlot, if_pos hm]
      exact .marked ht hm .nil
    · cases he : st.isEdited h.slot with
      | true =>
        simp only [searchSlot, if_neg hm, he, if_true]
        refine .edited ht hm he ?_
        rw [List.erase_cons_head]
        exact .nil
      | false =>
        have body : st.Searches target (h.slot :: marks) (st.builder h.slot).fragments.toList
            (searchFragments target (st.searchSlot target fuel)
              (st.builder h.slot).fragments.toList (h.slot :: marks)).found (h.slot :: marks) := by
          by_cases hs : h.slot < st.size
          · refine searchFragments_searches (marks_searchSlot st target fuel) ?_ _
            intro g hg
            refine ih g (List.nodup_cons.mpr ⟨hm, hd⟩) ?_
              (by simp only [List.length_cons]; omega) hg
            exact List.forall_mem_cons.mpr ⟨hs, hb⟩
          · -- a slot that is not there has no fragments, so no depth is needed
            rw [builder_of_size_le (Nat.le_of_not_lt hs)]
            exact .nil
        simp only [searchSlot, if_neg hm, he, Bool.false_eq_true, if_false]
        cases hfound : (searchFragments target (st.searchSlot target fuel)
            (st.builder h.slot).fragments.toList (h.slot :: marks)).found with
        | true =>
          rw [hfound] at body
          have whole : st.Searches target marks [.slot h] true _ := .hit ht hm he body
          rwa [List.erase_cons_head] at whole
        | false =>
          rw [hfound] at body
          refine .miss ht hm he body ?_
          rw [List.erase_cons_head]
          exact .nil

theorem searchHandle_searches {h : Handle} (ht : h.slot ≠ target) :
    st.Searches target [] [.slot h] (st.searchHandle h target).found [] :=
  searchSlot_searches _ h List.nodup_nil (fun _ hi => nomatch hi) (Nat.lt_succ_self _) ht

end Store

/-! ## Content -/

namespace Content

/-- The fragments that are searched before a slot takes the content. -/
def row : Content → List Fragment
  | .slot h => [.slot h]
  | .snippet b => b.fragments.toList
  | .empty | .text _ | .markup _ => []

theorem leadsTo_searches (c : Content) (st : Store) (target : SlotId) :
    st.Searches target [] c.row (c.leadsTo st target) [] := by
  cases c with
  | slot h =>
    rw [row, leadsTo]
    by_cases ht : h.slot = target
    · rw [beq_iff_eq.mpr ht, Bool.true_or]
      exact .same ht
    · rw [beq_eq_false_iff_ne.mpr ht, Bool.false_or]
      exact Store.searchHandle_searches ht
  | snippet b =>
    exact Store.searchFragments_searches (Store.marks_searchSlot st target _)
      (fun _ ht => Store.searchHandle_searches ht) _
  | empty | text | markup => exact .nil

theorem searches_iff {c : Content} {st : Store} {target : SlotId} {found : Bool} {after : Marks} :
    st.Searches target [] c.row found after ↔ found = c.leadsTo st target ∧ after = [] := by
  constructor
  · exact (c.leadsTo_searches st target).unique
  · intro h
    obtain ⟨rfl, rfl⟩ := h
    exact c.leadsTo_searches st target

end Content

/-- **A slot refuses just what leads to it.** While nothing is edited, whatever cycles there are,
content is refused by a slot if the slot is reached from it, and taken if not. The search before
that ends, in one way only: with a hit just if the slot is reached, and with no slot marked. -/
theorem Handle.refuses_iff_reaches {st : Store} (he : ∀ i, st.isEdited i = false) (h : Handle)
    (c : Content) :
    (∀ call ∈ [HandleCall.set c, HandleCall.add c],
      (c.Reaches st h.slot → (call.run h st).refusal = some (.selfReference h.name)) ∧
      (¬ c.Reaches st h.slot → (call.run h st).refusal = none)) ∧
    (c.leadsTo st h.slot = true ↔ c.Reaches st h.slot) ∧
    (∀ found after, st.Searches h.slot [] c.row found after ↔
      found = c.leadsTo st h.slot ∧ after = []) ∧
    (∀ g, (st.searchHandle g h.slot).marks = []) ∧ ∀ b, (st.searchBuilder b h.slot).marks = [] := by
  have finds_iff : c.Finds st h.slot ↔ c.Reaches st h.slot := by
    rw [← Content.leadsTo_iff, Content.leadsTo_iff_reaches he]
  have unmarked : ∀ g marks, (st.searchSlot h.slot st.depthBound g marks).marks = marks :=
    Store.marks_searchSlot st h.slot st.depthBound
  refine ⟨?_, Content.leadsTo_iff_reaches he, fun _ _ => Content.searches_iff,
    fun g => unmarked g [], fun b => Store.marks_searchFragments unmarked _ []⟩
  intro call hcall
  have brings : call.content? = some c := by
    simp only [List.mem_cons, List.not_mem_nil, or_false] at hcall
    rcases hcall with rfl | rfl <;> rfl
  rcases HandleCall.run_cases call h st with ⟨⟨d, hd, hf⟩, hrun⟩ | ⟨unseen, hfree⟩
  · have same : c = d := Option.mem_unique brings hd
    rw [← same, finds_iff] at hf
    exact ⟨fun _ => by rw [hrun], fun apart => absurd hf apart⟩
  · have apart : ¬ c.Reaches st h.slot := by
      rw [← finds_iff]
      exact unseen c brings
    rcases hfree with ⟨edited, _⟩ | ⟨_, accepted, _⟩
    · rw [he] at edited
      cases edited
    · exact ⟨fun reaches => absurd reaches apart, fun _ => accepted⟩

namespace Session

/-- Slot A stands in itself, where an edit has put it, and in slot B; both stand in slot C, and
nothing stands in slot D. -/
def knotted : List Action :=
  [.perform (.registry "r" .create),
    .perform (.registry "r" (.declare "A" (some "a"))),
    .perform (.registry "r" (.declare "B" (some "b"))),
    .perform (.registry "r" (.declare "C" (some "c"))),
    .perform (.registry "r" (.declare "D" none)),
    .beginEdit "a" "x",
    .perform (.call "x" (.append (.handle "a"))),
    .endEdit 0,
    .perform (.handleCall "b" (.set (.handle "a"))),
    .perform (.handleCall "c" (.add (.handle "b"))),
    .perform (.handleCall "c" (.add (.handle "a")))]

theorem isEdited_knotted (i : SlotId) : (run {} knotted).store.isEdited i = false := by
  match i with
  | 0 | 1 | 2 | 3 => decide +kernel
  | i + 4 => rfl

theorem refuses_iff_reaches_knotted :
    (run {} knotted).Reachable ∧ (run {} knotted).store.Reaches 0 0 ∧
    (∀ i, (run {} knotted).store.isEdited i = false) ∧
    (HandleCall.run ⟨"A", 0, true⟩ (run {} knotted).store (.set (.slot ⟨"C", 2, true⟩))).refusal =
      some (.selfReference "A") ∧
    (HandleCall.run ⟨"D", 3, true⟩ (run {} knotted).store (.add (.slot ⟨"C", 2, true⟩))).refusal =
      none := by
  have loop : (run {} knotted).store.Leads 0 0 := by
    unfold Store.Leads
    decide +kernel
  have reaches : Content.Reaches (.slot ⟨"C", 2, true⟩) (run {} knotted).store 0 := by
    have direct : (run {} knotted).store.Leads 2 0 := by
      unfold Store.Leads
      decide +kernel
    exact ⟨2, List.mem_singleton.mpr rfl, .inr (.single direct)⟩
  have first := Handle.refuses_iff_reaches isEdited_knotted ⟨"A", 0, true⟩ (.slot ⟨"C", 2, true⟩)
  have second := Handle.refuses_iff_reaches isEdited_knotted ⟨"D", 3, true⟩ (.slot ⟨"C", 2, true⟩)
  have apart : ¬ Content.Reaches (.slot ⟨"C", 2, true⟩) (run {} knotted).store 3 := by
    intro hr
    have found := second.2.1.mpr hr
    revert found
    decide +kernel
  exact ⟨Reachable.start.run knotted, .single loop, isEdited_knotted,
    (first.1 _ List.mem_cons_self).1 reaches,
    (second.1 _ (List.mem_cons_of_mem _ List.mem_cons_self)).2 apart⟩

end Session

end Hypertext
