import Hypertext.Escape.Entity
import Mathlib.Data.List.Infix

/-! # Reading character references

Character references are taken back by replacing them one kind after the other. A single pass from
the left that takes each reference for its character, and never looks at a character that it has
made, comes to the same. -/

namespace Hypertext.Escape

/-- The characters that are written as references somewhere. -/
def referenced : List Char := ['&', '"', '>', '<']

/-- The first of the characters whose reference stands at the front of the text. -/
def referenceAt? (ds text : List Char) : Option Char :=
  ds.find? fun d => (quotedReference d).isPrefixOf text

/-- One pass over the text, in which the references to the characters `ds` are read. -/
def decode (ds : List Char) : List Char → List Char
  | [] => []
  | c :: cs =>
    match referenceAt? ds (c :: cs) with
    | some d => d :: decode ds (cs.drop ((quotedReference d).length - 1))
    | none => c :: decode ds cs
termination_by cs => cs.length
decreasing_by
  · have := List.length_drop (i := (quotedReference d).length - 1) (l := cs)
    rw [List.length_cons]
    omega
  · exact Nat.lt_succ_self _

/-- A text goes on behind each pattern at its front, and behind each character where no pattern
begins. -/
@[elab_as_elim]
theorem pattern_induction {Pattern : List Char → Prop} (ne : ∀ p, Pattern p → p ≠ [])
    {motive : List Char → Prop} (nil : motive [])
    (found : ∀ p cs, Pattern p → motive cs → motive (p ++ cs))
    (other : ∀ c cs, (∀ p, Pattern p → ¬ p <+: c :: cs) → motive cs → motive (c :: cs))
    (text : List Char) : motive text := by
  induction hn : text.length using Nat.strong_induction_on generalizing text with
  | _ n ih =>
    cases text with
    | nil => exact nil
    | cons c cs =>
      by_cases h : ∃ p, Pattern p ∧ p <+: c :: cs
      · obtain ⟨p, hp, tail, ht⟩ := h
        have shorter : tail.length < n := by
          have long := List.length_pos_of_ne_nil (ne p hp)
          rw [← hn, ← ht, List.length_append]
          omega
        rw [← ht]
        exact found p tail hp (ih _ shorter tail rfl)
      · have shorter : cs.length < n := by
          rw [← hn, List.length_cons]
          omega
        exact other c cs (fun p hp front => h ⟨p, hp, front⟩) (ih _ shorter cs rfl)

/-! ## References -/

variable {c d e : Char} {ds cs rest : List Char}

/-- A reference starts with an ampersand, and behind it come none of the characters that references
stand for. -/
theorem quotedReference_eq_cons (hd : d ∈ referenced) :
    ∃ w, quotedReference d = '&' :: w ∧ ∀ c ∈ w, c ∉ referenced := by
  have shapes : ∀ d ∈ referenced, (quotedReference d).head? = some '&' ∧
      ∀ c ∈ (quotedReference d).tail, c ∉ referenced := by
    simp [referenced, quotedReference, textReference]
  obtain ⟨head, tail⟩ := shapes d hd
  exact ⟨_, (List.cons_head?_tail head).symm, tail⟩

theorem quotedReference_of_not_mem (hc : c ∉ referenced) : quotedReference c = [c] := by
  simp only [referenced, List.mem_cons, List.not_mem_nil, or_false, not_or] at hc
  obtain ⟨amp, quot, gt, lt⟩ := hc
  unfold quotedReference
  split
  · exact absurd rfl quot
  · unfold textReference
    split
    · exact absurd rfl amp
    · exact absurd rfl lt
    · exact absurd rfl gt
    · rfl

/-- No two references stand at the front of the same text. -/
theorem eq_of_reference_prefix (hd : d ∈ referenced) (he : e ∈ referenced)
    (hdc : quotedReference d <+: cs) (hec : quotedReference e <+: cs) : d = e := by
  have apart : ∀ d ∈ referenced, ∀ e ∈ referenced,
      quotedReference d <+: quotedReference e → d = e := by
    simp [referenced, quotedReference, textReference]
  rcases List.prefix_or_prefix_of_prefix hdc hec with h | h
  · exact apart d hd e he h
  · exact (apart e he d hd h).symm

/-! ## Steps of the pass -/

@[simp] theorem decode_nil (ds : List Char) : decode ds [] = [] := by
  rw [decode]

theorem decode_cons (h : ∀ d ∈ ds, ¬ quotedReference d <+: c :: cs) :
    decode ds (c :: cs) = c :: decode ds cs := by
  have none : referenceAt? ds (c :: cs) = none := by
    refine List.find?_eq_none.mpr ?_
    intro d hd
    simpa using h d hd
  rw [decode, none]

theorem decode_cons_of_ne (hds : ∀ d ∈ ds, d ∈ referenced) (hc : c ≠ '&') :
    decode ds (c :: cs) = c :: decode ds cs := by
  refine decode_cons ?_
  intro d hd h
  obtain ⟨w, hw, _⟩ := quotedReference_eq_cons (hds d hd)
  rw [hw, List.cons_prefix_cons] at h
  exact hc h.1.symm

theorem decode_append_of_ne (hds : ∀ d ∈ ds, d ∈ referenced) {w : List Char}
    (hw : ∀ c ∈ w, c ≠ '&') : decode ds (w ++ cs) = w ++ decode ds cs := by
  induction w with
  | nil => rfl
  | cons c w ih =>
    obtain ⟨hc, hw⟩ := List.forall_mem_cons.mp hw
    rw [List.cons_append, decode_cons_of_ne hds hc, ih hw, List.cons_append]

theorem decode_reference (hds : ∀ d ∈ ds, d ∈ referenced) (hd : d ∈ ds) :
    decode ds (quotedReference d ++ cs) = d :: decode ds cs := by
  obtain ⟨w, hw, _⟩ := quotedReference_eq_cons (hds d hd)
  have found : referenceAt? ds (quotedReference d ++ cs) = some d := by
    cases h : referenceAt? ds (quotedReference d ++ cs) with
    | none =>
      have unread := List.find?_eq_none.mp h d hd
      simp at unread
    | some e =>
      have here := List.find?_some h
      have : e = d := eq_of_reference_prefix (hds e (List.mem_of_find?_eq_some h)) (hds d hd)
        (by simpa using here) (List.prefix_append _ cs)
      rw [this]
  have len : (quotedReference d).length - 1 = w.length := by
    rw [hw, List.length_cons, Nat.add_sub_cancel]
  rw [hw, List.cons_append] at found ⊢
  rw [decode, found]
  simp only [len, List.drop_left]

/-- A pass that reads no references changes nothing. -/
theorem decode_none (cs : List Char) : decode [] cs = cs := by
  induction cs with
  | nil => exact decode_nil []
  | cons c cs ih => rw [decode_cons (List.forall_mem_nil _), ih]

/-! ## Replacing -/

variable {p r : List Char}

theorem replace_of_not_prefix (h : ¬ p <+: c :: cs) :
    replace p r (c :: cs) = c :: replace p r cs := by
  rw [replace, if_neg]
  simpa using h

theorem replace_append_self (p r cs : List Char) :
    replace (c :: p) r (c :: p ++ cs) = r ++ replace (c :: p) r cs := by
  rw [List.cons_append, replace, if_pos]
  · simp
  · simp

/-- What stands at the front after a pass and could not come from a reference stood there before. -/
theorem prefix_of_prefix_decode (hds : ∀ d ∈ ds, d ∈ referenced) {w : List Char}
    (hw : ∀ c ∈ w, c ∉ referenced) (h : w <+: decode ds cs) : w <+: cs := by
  induction w generalizing cs with
  | nil => exact List.nil_prefix
  | cons x w ih =>
    obtain ⟨hx, hw⟩ := List.forall_mem_cons.mp hw
    cases cs with
    | nil => simp at h
    | cons c cs =>
      by_cases hr : ∃ d ∈ ds, quotedReference d <+: c :: cs
      · obtain ⟨d, hd, tail, ht⟩ := hr
        rw [← ht, decode_reference hds hd, List.cons_prefix_cons] at h
        rw [h.1] at hx
        exact absurd (hds d hd) hx
      · have unread : ∀ d ∈ ds, ¬ quotedReference d <+: c :: cs := fun d hd hp => hr ⟨d, hd, hp⟩
        rw [decode_cons unread, List.cons_prefix_cons] at h
        exact List.cons_prefix_cons.mpr ⟨h.1, ih hw h.2⟩

/-- To replace one more kind of reference is to read it in the same pass. Ampersands have to come
last: an earlier one could start a reference that was not there. -/
theorem replace_decode (hd : d ∈ referenced) (hds : ∀ e ∈ ds, e ∈ referenced ∧ e ≠ '&')
    (cs : List Char) :
    replace (quotedReference d) [d] (decode ds cs) = decode (d :: ds) cs := by
  have hds' : ∀ e ∈ ds, e ∈ referenced := fun e he => (hds e he).1
  have hdds : ∀ e ∈ d :: ds, e ∈ referenced := List.forall_mem_cons.mpr ⟨hd, hds'⟩
  obtain ⟨w, hw, plain⟩ := quotedReference_eq_cons hd
  have noAmp : ∀ c ∈ w, c ≠ '&' := by
    rintro c hc rfl
    exact plain _ hc (by decide)
  have ne : ∀ p, (∃ e ∈ d :: ds, p = quotedReference e) → p ≠ [] := by
    rintro p ⟨e, he, rfl⟩
    obtain ⟨v, hv, _⟩ := quotedReference_eq_cons (hdds e he)
    rw [hv]
    exact List.cons_ne_nil _ _
  induction cs using pattern_induction ne with
  | nil => rw [decode_nil, decode_nil, replace]
  | found p tail hp ih =>
    obtain ⟨e, he, rfl⟩ := hp
    by_cases earlier : e ∈ ds
    · have kept : ¬ quotedReference d <+: e :: decode ds tail := by
        rw [hw, List.cons_prefix_cons]
        exact fun h => (hds e earlier).2 h.1.symm
      rw [decode_reference hds' earlier, decode_reference hdds he, replace_of_not_prefix kept, ih]
    · obtain rfl : e = d := (List.mem_cons.mp he).resolve_right earlier
      have unread : ∀ x ∈ ds, ¬ quotedReference x <+: quotedReference e ++ tail := by
        intro x hx front
        have same := eq_of_reference_prefix (hds' x hx) hd front (List.prefix_append _ tail)
        exact earlier (same ▸ hx)
      have passed : decode ds (quotedReference e ++ tail) = quotedReference e ++ decode ds tail := by
        rw [hw, List.cons_append] at unread
        rw [hw, List.cons_append, decode_cons unread, decode_append_of_ne hds' noAmp,
          List.cons_append]
      rw [passed, decode_reference hdds List.mem_cons_self, hw, replace_append_self, ← hw, ih,
        List.singleton_append]
  | other c cs free ih =>
    have unread : ∀ e ∈ d :: ds, ¬ quotedReference e <+: c :: cs :=
      fun e he => free _ ⟨e, he, rfl⟩
    obtain ⟨here, earlier⟩ := List.forall_mem_cons.mp unread
    have still : ¬ quotedReference d <+: c :: decode ds cs := by
      rw [hw, List.cons_prefix_cons]
      rintro ⟨rfl, h⟩
      have before := prefix_of_prefix_decode hds' plain h
      exact here (hw ▸ List.cons_prefix_cons.mpr ⟨rfl, before⟩)
    rw [decode_cons earlier, decode_cons unread, replace_of_not_prefix still, ih]

/-- All replacements together are one pass. -/
theorem toList_unescape (text : String) :
    (unescape text).toList = decode referenced text.toList := by
  calc (unescape text).toList
      = replace (quotedReference '&') ['&'] (replace (quotedReference '"') ['"']
          (replace (quotedReference '>') ['>'] (replace (quotedReference '<') ['<']
            (decode [] text.toList)))) := by
        rw [decode_none, unescape, String.toList_ofList]
        rfl
    _ = decode referenced text.toList := by
        rw [replace_decode, replace_decode, replace_decode, replace_decode]
        · rfl
        all_goals simp [referenced]

/-! ## What was written -/

/-- What is written for a character is read as that character. -/
theorem decode_quotedReference (c : Char) :
    decode referenced (quotedReference c ++ cs) = c :: decode referenced cs := by
  by_cases hc : c ∈ referenced
  · exact decode_reference (fun _ h => h) hc
  · have plain : c ≠ '&' := by
      rintro rfl
      exact hc (by decide)
    rw [quotedReference_of_not_mem hc, List.singleton_append,
      decode_cons_of_ne (fun _ h => h) plain]

theorem decode_flatMap_quotedReference (cs : List Char) :
    decode referenced (cs.flatMap quotedReference) = cs := by
  induction cs with
  | nil => exact decode_nil _
  | cons c cs ih => rw [List.flatMap_cons, decode_quotedReference, ih]

end Hypertext.Escape
