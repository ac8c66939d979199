import Hypertext.Proofs.Rendering.Repeats
import Hypertext.Proofs.Session.Sound
import Hypertext.Summary

/-! # Summaries of slots

A handle's summary is made of the rendering of the slot's builder, which is not inside the slot as
the handle's rendering is. The two show the same unless the slot is found from itself: then the
summary shows the slot again where the rendering passes over it. -/

namespace Hypertext

/-- The text is the summary of the markup under the name. -/
structure Summarizes (name html text : String) : Prop where
  empty : html = "" → text = "《" ++ name ++ "》"
  short : html ≠ "" → html.length ≤ 100 → text = "《" ++ name ++ ":" ++ html ++ "》"
  long : 100 < html.length →
    text = "《" ++ name ++ ":" ++ String.ofList (html.toList.take 20) ++ " ···》"

section Forms

variable {name html text : String}

theorem summary_empty : summary name "" = "《" ++ name ++ "》" := by
  simp [summary, briefLimit]

theorem summary_short (h : html ≠ "") (short : html.length ≤ 100) :
    summary name html = "《" ++ name ++ ":" ++ html ++ "》" := by
  have some : 0 < html.length := Nat.pos_of_ne_zero (mt String.length_eq_zero_iff.mp h)
  simp only [summary, briefLimit, Nat.not_lt.mpr short, some, if_false, if_true,
    String.append_assoc]

theorem summary_long (long : 100 < html.length) :
    summary name html =
      "《" ++ name ++ ":" ++ String.ofList (html.toList.take 20) ++ " ···》" := by
  have closed : (" ···" : String) ++ "》" = " ···》" := by decide +kernel
  simp only [summary, briefLimit, briefKeep, long, if_true, String.append_assoc, gt_iff_lt, closed]

/-- The three forms are those of the summary. -/
theorem summarizes_iff : Summarizes name html text ↔ text = summary name html := by
  constructor
  · intro h
    by_cases empty : html = ""
    · rw [h.empty empty, empty, summary_empty]
    · rcases Nat.lt_or_ge 100 html.length with long | short
      · rw [h.long long, summary_long long]
      · rw [h.short empty short, summary_short empty short]
  · rintro rfl
    exact ⟨fun empty => by rw [empty, summary_empty], summary_short, summary_long⟩

theorem length_summary (short : html.length ≤ 100) :
    (summary name html).length =
      name.length + html.length + if html = "" then 2 else 3 := by
  have opens : "《".length = 1 := by decide +kernel
  have parts : ":".length = 1 := by decide +kernel
  have closes : "》".length = 1 := by decide +kernel
  by_cases empty : html = ""
  · rw [empty, summary_empty, if_pos rfl, String.length_append, String.length_append, opens, closes,
      String.length_empty]
    omega
  · simp only [summary_short empty short, if_neg empty, String.length_append, opens, parts, closes]
    omega

/-- Markup that is not cut is told by its summary. -/
theorem summary_inj {other : String} (short : html.length ≤ 100) (short' : other.length ≤ 100)
    (h : summary name html = summary name other) : html = other := by
  have lengths := congrArg String.length h
  rw [length_summary short, length_summary short'] at lengths
  by_cases empty : html = ""
  · by_cases empty' : other = ""
    · rw [empty, empty']
    · rw [if_pos empty, if_neg empty', empty] at lengths
      simp at lengths
      omega
  · by_cases empty' : other = ""
    · rw [if_neg empty, if_pos empty', empty'] at lengths
      simp at lengths
      omega
    · rw [summary_short empty short, summary_short empty' short'] at h
      simpa using h

end Forms

theorem Handle.brief_of_edited {st : Store} {h : Handle} (he : st.isEdited h.slot = true) :
    (h.brief st).value = summary h.name "" := by
  rw [brief, if_pos he]
  rfl

theorem Handle.brief_of_unedited {st : Store} {h : Handle} (he : st.isEdited h.slot = false) :
    (h.brief st).value =
      summary (st.builder h.slot).name ((st.builder h.slot).render st).value := by
  rw [brief, he]
  rfl

/-- **Summaries show repeats.** While a slot is being edited, it is summarized as it is rendered: as
empty, under the handle's name. At other times it is summarized under the name of its builder. The
markup in the summary is what the handle renders, and where the slot is found from itself, the slot
once more. So the summary is that of the rendering for all slots that are not found from themselves.
Of other slots it is, as long as nothing is cut, just if none of the repeats has any text. -/
theorem Handle.brief_shows_repeats (st : Store) (h : Handle) :
    (st.isEdited h.slot = true → Summarizes h.name (h.render st).value (h.brief st).value) ∧
    (st.isEdited h.slot = false → ∃ row : List Part,
      (h.render st).value = Piece.render (Part.kept row) ∧
      Summarizes (st.builder h.slot).name (Piece.render (Part.full row)) (h.brief st).value ∧
      (∀ inner ∈ Part.repeats row, st.Repeats h.slot inner) ∧
      (Part.repeats row = [] ↔ ¬ st.Finds h.slot h.slot) ∧
      (¬ st.Finds h.slot h.slot →
        Summarizes (st.builder h.slot).name (h.render st).value (h.brief st).value) ∧
      ((Piece.render (Part.full row)).length ≤ 100 →
        (Summarizes (st.builder h.slot).name (h.render st).value (h.brief st).value ↔
          ∀ inner ∈ Part.repeats row, Piece.render inner = ""))) := by
  constructor
  · intro he
    rw [summarizes_iff, brief_of_edited he, render_of_edited he]
  · intro he
    obtain ⟨row, log, rendered, whole, _, repeats, found⟩ := render_splits he
    have shown : (h.render st).value = Piece.render (Part.kept row) := by rw [rendered]
    have brief : (h.brief st).value =
        summary (st.builder h.slot).name (Piece.render (Part.full row)) := by
      rw [brief_of_unedited he, whole]
    refine ⟨row, shown, summarizes_iff.mpr brief, repeats, found, ?_, ?_⟩
    · intro apart
      rw [summarizes_iff, brief, shown, Part.kept_eq_full (found.mpr apart)]
    · intro short
      have short' : (Piece.render (Part.kept row)).length ≤ 100 :=
        Nat.le_trans (Part.length_full row ▸ Nat.le_add_right _ _) short
      rw [summarizes_iff, brief, shown, ← Part.render_kept_iff]
      constructor
      · intro same
        exact (summary_inj short short' same).symm
      · intro same
        rw [same]

namespace Session

/-- A slot is edited so that it contains itself. -/
def looping : List Action :=
  [.perform (.registry "r" .create),
    .perform (.registry "r" (.declare "Loop" (some "t"))),
    .beginEdit "t" "x",
    .perform (.call "x" (.append (.text (.literal "x")))),
    .perform (.call "x" (.append (.handle "t"))),
    .endEdit 0]

/-- The slot's text is rendered once and summarized twice. -/
theorem loop_shown_twice :
    (run {} looping).Reachable ∧ (run {} looping).handles.find? "t" = some ⟨"Loop", 0, true⟩ ∧
    (Handle.render ⟨"Loop", 0, true⟩ (run {} looping).store).value = "x" ∧
    (Handle.brief ⟨"Loop", 0, true⟩ (run {} looping).store).value = "《Loop:xx》" ∧
    ¬ Summarizes "Loop" (Handle.render ⟨"Loop", 0, true⟩ (run {} looping).store).value
      (Handle.brief ⟨"Loop", 0, true⟩ (run {} looping).store).value := by
  have rendered : (Handle.render ⟨"Loop", 0, true⟩ (run {} looping).store).value = "x" := by
    decide +kernel
  have summarized :
      (Handle.brief ⟨"Loop", 0, true⟩ (run {} looping).store).value = "《Loop:xx》" := by
    decide +kernel
  refine ⟨Reachable.start.run looping, by decide +kernel, rendered, summarized, ?_⟩
  rw [rendered, summarized, summarizes_iff]
  decide +kernel

end Session

end Hypertext
