import Hypertext.Proofs.Comments.Ends

/-! # What becomes of the text of a comment

The text is written character for character. Only the dashes of its ends become others, and since
those are no dashes that could end a comment, no end is left or made. -/

namespace Hypertext.Escape

variable {c : Char} {cs text : List Char} {i : Nat}

instance (markup : List Char) (i : Nat) : Decidable (EndsAt markup i) :=
  inferInstanceAs (Decidable (commentEnd <+: markup.drop i))

/-- One of the two dashes of an end stands at the place. -/
def DashAt (markup : List Char) (i : Nat) : Prop :=
  EndsAt markup i ∨ 0 < i ∧ EndsAt markup (i - 1)

instance (markup : List Char) (i : Nat) : Decidable (DashAt markup i) :=
  inferInstanceAs (Decidable (_ ∨ _))

/-! ## Places of dashes -/

theorem not_dashAt_nil (i : Nat) : ¬ DashAt [] i := by
  simp [DashAt, not_endsAt_nil]

@[simp] theorem dashAt_zero : DashAt text 0 ↔ EndsAt text 0 := by
  simp [DashAt]

theorem dashAt_one : DashAt (c :: cs) 1 ↔ EndsAt cs 0 ∨ EndsAt (c :: cs) 0 := by
  rw [DashAt, endsAt_cons_succ]
  simp

@[simp] theorem dashAt_cons_add_two : DashAt (c :: cs) (i + 2) ↔ DashAt cs (i + 1) := by
  simp [DashAt]

/-- Behind a character at which no end begins, the dashes are those of the ends behind it. -/
theorem dashAt_cons_succ (h : ¬ commentEnd <+: c :: cs) :
    DashAt (c :: cs) (i + 1) ↔ DashAt cs i := by
  cases i with
  | zero =>
    have unended : ¬ EndsAt (c :: cs) 0 := h
    rw [dashAt_one, or_iff_left unended, dashAt_zero]
  | succ i => exact dashAt_cons_add_two

/-! ## The written text -/

theorem length_brokenEnds (text : List Char) : (brokenEnds text).length = text.length := by
  induction text using ends_induction with
  | nil => rw [brokenEnds_nil]
  | ended cs ih =>
    rw [brokenEnds_commentEnd]
    simp [commentEnd, ih]
  | other c cs h ih => rw [brokenEnds_cons h, List.length_cons, List.length_cons, ih]

/-- At each place stands what stood there in the text, or a figure dash for the dash of an end. -/
theorem getElem?_brokenEnds (text : List Char) (i : Nat) :
    (brokenEnds text)[i]? = if DashAt text i then some '‒' else text[i]? := by
  induction text using ends_induction generalizing i with
  | nil => rw [brokenEnds_nil, if_neg (not_dashAt_nil i)]
  | ended cs ih =>
    rw [brokenEnds_commentEnd]
    show _ = if DashAt ('-' :: '-' :: '>' :: cs) i then _ else ('-' :: '-' :: '>' :: cs)[i]?
    match i with
    | 0 => simp
    | 1 => simp [dashAt_one]
    | 2 => simp [dashAt_one]
    | i + 3 =>
      have apart : ¬ commentEnd <+: '>' :: cs := by simp [commentEnd]
      simp only [List.getElem?_cons_succ, dashAt_cons_add_two, dashAt_cons_succ apart, ih]
  | other c cs h ih =>
    rw [brokenEnds_cons h]
    cases i with
    | zero =>
      have unended : ¬ DashAt (c :: cs) 0 := mt dashAt_zero.mp h
      rw [if_neg unended, List.getElem?_cons_zero, List.getElem?_cons_zero]
    | succ i => simp only [List.getElem?_cons_succ, dashAt_cons_succ h, ih]

/-- What would be an end in the written text would be one in the comment, and too early. -/
theorem not_endsAt_brokenEnds (text : List Char) (i : Nat) : ¬ EndsAt (brokenEnds text) i := by
  intro h
  have long := h.length_le
  rw [List.length_drop, commentEnd, List.length_cons] at long
  have inComment : EndsAt (brokenEnds text ++ commentEnd) i := by
    rw [EndsAt, List.drop_append_of_le_length (by omega)]
    exact h.trans (List.prefix_append _ _)
  have last := (endsAt_brokenEnds text i).mp inComment
  omega

theorem brokenEnds_of_not_endsAt (h : ∀ i, ¬ EndsAt text i) : brokenEnds text = text := by
  induction text with
  | nil => exact brokenEnds_nil
  | cons c cs ih =>
    rw [brokenEnds_cons (h 0), ih fun i => h (i + 1)]

/-- **The text of a comment keeps its places.** It is written with as many characters as it has, and
each of them stays as it is but for the two dashes of each end, which become figure dashes. Behind
that there is no end in it, so nothing changes when it is written once more. -/
theorem comment_text_keeps_places (text : String) :
    (escapeComment text).length = text.length ∧
    (∀ i, (escapeComment text).toList[i]? =
      if DashAt text.toList i then some '‒' else text.toList[i]?) ∧
    (∀ i, ¬ EndsAt (escapeComment text).toList i) ∧
    escapeComment (escapeComment text) = escapeComment text := by
  refine ⟨?_, ?_, ?_, ?_⟩
  · rw [← String.length_toList, toList_escapeComment, length_brokenEnds, String.length_toList]
  · intro i
    rw [toList_escapeComment, getElem?_brokenEnds]
  · intro i
    rw [toList_escapeComment]
    exact not_endsAt_brokenEnds text.toList i
  · rw [← String.toList_inj, toList_escapeComment, toList_escapeComment]
    exact brokenEnds_of_not_endsAt (not_endsAt_brokenEnds text.toList)

example : escapeComment "a ---> b-->-->" = "a -‒‒> b‒‒>‒‒>" := by decide +kernel

end Hypertext.Escape
