import Hypertext.Builder
import Hypertext.Proofs.Reading.References

/-! # Where comments end

A comment ends at the first `-->`, and the dashes of `<!--` count for it. In the text all of them are
broken, and the text makes no other one with what follows it. With the dashes before it, it can: one
that begins with `>` or `->` ends the comment at once. -/

namespace Hypertext.Escape

def commentEnd : List Char := ['-', '-', '>']

/-- The text of a comment as it is written. -/
def brokenEnds (text : List Char) : List Char :=
  replace commentEnd ['‒', '‒', '>'] text

/-- An end of a comment stands at the place. -/
def EndsAt (markup : List Char) (i : Nat) : Prop :=
  commentEnd <+: markup.drop i

variable {c : Char} {cs text : List Char} {i : Nat}

theorem toList_escapeComment (text : String) :
    (escapeComment text).toList = brokenEnds text.toList :=
  String.toList_ofList

/-! ## Places -/

theorem not_endsAt_nil (i : Nat) : ¬ EndsAt [] i := by
  simp [EndsAt, commentEnd]

@[simp] theorem endsAt_cons_succ : EndsAt (c :: cs) (i + 1) ↔ EndsAt cs i := Iff.rfl

@[simp] theorem endsAt_cons_zero : EndsAt (c :: cs) 0 ↔ c = '-' ∧ ['-', '>'] <+: cs := by
  rw [EndsAt, List.drop_zero, commentEnd, List.cons_prefix_cons, eq_comm]

theorem endsAt_commentEnd : EndsAt commentEnd i ↔ i = 0 := by
  constructor
  · intro h
    have length := h.length_le
    rw [List.length_drop] at length
    simp only [commentEnd, List.length_cons, List.length_nil] at length
    omega
  · rintro rfl
    exact List.prefix_refl _

/-! ## The text -/

/-- A text goes on behind each of its ends, and behind each character where none begins. -/
@[elab_as_elim]
theorem ends_induction {motive : List Char → Prop} (nil : motive [])
    (ended : ∀ cs, motive cs → motive (commentEnd ++ cs))
    (other : ∀ c cs, ¬ commentEnd <+: c :: cs → motive cs → motive (c :: cs))
    (text : List Char) : motive text := by
  have ne : ∀ p, p = commentEnd → p ≠ [] := by
    rintro p rfl
    exact List.cons_ne_nil _ _
  induction text using pattern_induction ne with
  | nil => exact nil
  | found p cs hp ih => exact hp ▸ ended cs ih
  | other c cs free ih => exact other c cs (free _ rfl) ih

@[simp] theorem brokenEnds_nil : brokenEnds [] = [] := by
  rw [brokenEnds, replace]

@[simp] theorem brokenEnds_commentEnd (cs : List Char) :
    brokenEnds (commentEnd ++ cs) = '‒' :: '‒' :: '>' :: brokenEnds cs :=
  replace_append_self ['-', '>'] _ cs

theorem brokenEnds_cons (h : ¬ commentEnd <+: c :: cs) :
    brokenEnds (c :: cs) = c :: brokenEnds cs :=
  replace_of_not_prefix h

/-! What could follow a dash before the text to end the comment stands in front of the written text
just if it does of the text: no such thing is put in. -/

theorem close_prefix_brokenEnds (text : List Char) :
    ['>'] <+: brokenEnds text ++ commentEnd ↔ ['>'] <+: text := by
  induction text using ends_induction with
  | nil =>
    rw [brokenEnds_nil]
    decide
  | ended cs _ =>
    rw [brokenEnds_commentEnd]
    simp [commentEnd]
  | other c cs h _ => simp [brokenEnds_cons h]

theorem dash_prefix_brokenEnds (text : List Char) :
    ['-', '>'] <+: brokenEnds text ++ commentEnd ↔ ['-', '>'] <+: text := by
  induction text using ends_induction with
  | nil =>
    rw [brokenEnds_nil]
    decide
  | ended cs _ =>
    rw [brokenEnds_commentEnd]
    simp [commentEnd]
  | other c cs h _ =>
    rw [brokenEnds_cons h, List.cons_append, List.cons_prefix_cons, List.cons_prefix_cons,
      close_prefix_brokenEnds]

/-- Behind the written text, the first end is the one that was put there. -/
theorem endsAt_brokenEnds (text : List Char) (i : Nat) :
    EndsAt (brokenEnds text ++ commentEnd) i ↔ i = (brokenEnds text).length := by
  induction text using ends_induction generalizing i with
  | nil =>
    rw [brokenEnds_nil]
    exact endsAt_commentEnd
  | ended cs ih =>
    rw [brokenEnds_commentEnd]
    match i with
    | 0 | 1 | 2 => simp
    | i + 3 => simp [ih]
  | other c cs h ih =>
    rw [brokenEnds_cons h, List.cons_append]
    cases i with
    | zero =>
      have unended : ¬ (c = '-' ∧ ['-', '>'] <+: cs) := by
        rwa [← endsAt_cons_zero]
      rw [endsAt_cons_zero, dash_prefix_brokenEnds]
      simpa using unended
    | succ i => simp [ih]

/-! ## The comment -/

/-- The ends in a comment are the one that closes it and, if the text begins so, one that it makes
with the dashes before it. -/
theorem endsAt_comment (text : List Char) (i : Nat) :
    EndsAt ('<' :: '!' :: '-' :: '-' :: (brokenEnds text ++ commentEnd)) i ↔
      i = (brokenEnds text).length + 4 ∨ i = 2 ∧ ['>'] <+: text ∨ i = 3 ∧ ['-', '>'] <+: text := by
  match i with
  | 0 | 1 => simp
  | 2 => simp [close_prefix_brokenEnds]
  | 3 => simp [dash_prefix_brokenEnds]
  | i + 4 => simp [endsAt_brokenEnds]

end Hypertext.Escape

namespace Hypertext.Builder

open Escape (EndsAt)

/-- **What ends a comment early.** A comment is one piece of markup that ends in `-->`. Another end
stands in it, before that one, just if the text begins with `>` or `->`: then the dashes of `<!--`
belong to it. -/
theorem comment_ends_early_iff (b : Builder) (text : String) :
    ∃ html : String, b.comment text = b.pushPiece (.text html) ∧
      html = "<!--" ++ Escape.escapeComment text ++ "-->" ∧
      (∀ i, EndsAt html.toList i ↔
        i + 3 = html.length ∨ i = 2 ∧ ['>'] <+: text.toList ∨ i = 3 ∧ ['-', '>'] <+: text.toList) ∧
      ((∃ i, EndsAt html.toList i ∧ i + 3 ≠ html.length) ↔
        ['>'] <+: text.toList ∨ ['-', '>'] <+: text.toList) := by
  have written : ("<!--" ++ Escape.escapeComment text ++ "-->").toList =
      '<' :: '!' :: '-' :: '-' :: (Escape.brokenEnds text.toList ++ Escape.commentEnd) := by
    rw [String.toList_append, String.toList_append, Escape.toList_escapeComment]
    rfl
  have length : ("<!--" ++ Escape.escapeComment text ++ "-->").length =
      (Escape.brokenEnds text.toList).length + 7 := by
    rw [← String.length_toList, written]
    simp [Escape.commentEnd]
  refine ⟨_, rfl, rfl, ?_, ?_⟩
  · intro i
    have last : i = (Escape.brokenEnds text.toList).length + 4 ↔
        i + 3 = (Escape.brokenEnds text.toList).length + 7 := by omega
    rw [written, length, Escape.endsAt_comment, last]
  · simp only [written, length, Escape.endsAt_comment]
    constructor
    · intro other
      obtain ⟨i, last | ⟨_, early⟩ | ⟨_, early⟩, behind⟩ := other
      · omega
      · exact .inl early
      · exact .inr early
    · intro early
      rcases early with early | early
      · exact ⟨2, .inr (.inl ⟨rfl, early⟩), by omega⟩
      · exact ⟨3, .inr (.inr ⟨rfl, early⟩), by omega⟩

/-- The comments on `->` and on `>` end at once, and the rest of them is left over. -/
theorem comment_of_arrow :
    (({ name := "E Builder" } : Builder).comment "->").fragments =
      #[.piece (.text "<!--->-->")] ∧
    EndsAt "<!--->-->".toList 3 ∧ 3 + 3 ≠ "<!--->-->".length ∧
    (({ name := "E Builder" } : Builder).comment ">").fragments =
      #[.piece (.text "<!-->-->")] ∧
    EndsAt "<!-->-->".toList 2 ∧ 2 + 3 ≠ "<!-->-->".length := by
  unfold EndsAt
  decide +kernel

end Hypertext.Builder
