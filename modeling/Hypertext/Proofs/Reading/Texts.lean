import Hypertext.Proofs.Lives.Exchange
import Hypertext.Proofs.Reading.Scan

/-! # Reading escaped text

Escaped text has none of the marks of a tag in it, and its ampersands all begin references, so it is
read as the text that was escaped. It is escaped character by character: what comes of a text does
not depend on how it was cut. -/

namespace Hypertext.Escape

variable {c : Char} {cs before behind : List Char}

/-- An ampersand is written only where a reference begins. -/
theorem reference_of_textReference (h : textReference c = before ++ '&' :: behind) :
    before = [] ∧ ∃ r : Reference, r ≠ .quote ∧ r.written = textReference c := by
  have alone : ∀ {w : List Char}, '&' ∉ w → '&' :: w = before ++ '&' :: behind → before = [] := by
    intro w hw split
    cases before with
    | nil => rfl
    | cons x before =>
      obtain ⟨_, rfl⟩ := List.cons.inj split
      exact absurd (List.mem_append_right before List.mem_cons_self) hw
  unfold textReference at h ⊢
  split at h
  · exact ⟨alone (by decide) h, .ampersand, by decide, rfl⟩
  · exact ⟨alone (by decide) h, .less, by decide, rfl⟩
  · exact ⟨alone (by decide) h, .greater, by decide, rfl⟩
  · rename_i amp _ _
    cases before with
    | nil => exact absurd (List.cons.inj h).1 amp
    | cons x before => exact absurd (List.cons.inj h).2.symm (by simp)

theorem reference_of_flatMap_textReference
    (h : cs.flatMap textReference = before ++ '&' :: behind) :
    ∃ r : Reference, r ≠ .quote ∧ r.written <+: '&' :: behind := by
  induction cs generalizing before with
  | nil => simp at h
  | cons c cs ih =>
    rw [List.flatMap_cons, List.append_eq_append_iff] at h
    rcases h with ⟨more, _, rest⟩ | ⟨more, here, rest⟩
    · exact ih rest
    · -- What is written for the character reaches up to the ampersand, or beyond it.
      cases more with
      | nil =>
        have later : cs.flatMap textReference = [] ++ '&' :: behind := rest.symm
        exact ih later
      | cons x more =>
        obtain ⟨rfl, rest⟩ := List.cons.inj rest
        obtain ⟨rfl, r, text, written⟩ := reference_of_textReference here
        rw [here, List.nil_append] at written
        exact ⟨r, text, by rw [written, rest]; exact ⟨_, rfl⟩⟩

/-- What text writes for a character is read as that character, whatever comes behind it. -/
theorem decode_textReference (c : Char) (cs : List Char) :
    decode referenced (textReference c ++ cs) = c :: decode referenced cs := by
  by_cases hc : c = '"'
  · subst hc
    exact decode_cons_of_ne (fun _ h => h) (by decide)
  · have quoted : quotedReference c = textReference c := by
      unfold quotedReference
      split
      · exact absurd rfl hc
      · rfl
    rw [← quoted, decode_quotedReference]

theorem decode_flatMap_textReference (cs : List Char) :
    decode referenced (cs.flatMap textReference) = cs := by
  induction cs with
  | nil => exact decode_nil _
  | cons c cs ih => rw [List.flatMap_cons, decode_textReference, ih]

open Builder in
/-- **Escaped text is read as it was.** It has neither `<` nor `>` in it, each `&` in it begins
`&amp;`, `&lt;` or `&gt;`, and with its references taken back it is the text again. Texts are escaped
one by one as they are escaped together. So a builder in which text is not raw is rendered alike
however the text that comes to it is cut, whatever came before and whatever comes later. -/
theorem escapeText_reads_back (s : String) :
    (∀ c ∈ (escapeText s).toList, c ≠ '<' ∧ c ≠ '>') ∧
    (∀ before behind, (escapeText s).toList = before ++ '&' :: behind →
      ∃ r : Reference, r ≠ .quote ∧ r.written <+: '&' :: behind) ∧
    unescape (escapeText s) = s ∧
    (∀ t, escapeText (s ++ t) = escapeText s ++ escapeText t) ∧
    ∀ b : Builder, b.HasLife → ¬ ElementKind.Raw b.stack.textKind →
      ∀ texts, String.join texts = s → ∀ st events later,
        (b.afterAll (texts.map (Event.text st) ++ events)).render later =
          (b.afterAll (Event.text st s :: events)).render later := by
  refine ⟨harmless_escapeText s, ?_, ?_, ?_, ?_⟩
  · intro before behind split
    rw [toList_escapeText] at split
    exact reference_of_flatMap_textReference split
  · apply String.toList_inj.mp
    rw [toList_unescape, toList_escapeText, decode_flatMap_textReference]
  · intro t
    apply String.toList_inj.mp
    simp
  · rintro b life notRaw texts rfl st events later
    exact life.render_texts notRaw texts st events later

/-- A paragraph to which a text comes in three parts, cut inside of what looks like a reference. -/
theorem escapeText_reads_back_cut :
    let b := Builder.afterAll { name := "E Builder" } [.call (.tag "p") {}]
    let texts := ["a &l", "t; \"b\" ", "<i>"]
    b.HasLife ∧ ¬ ElementKind.Raw b.stack.textKind ∧ String.join texts = "a &lt; \"b\" <i>" ∧
    unescape "a &amp;lt; \"b\" &lt;i&gt;" = "a &lt; \"b\" <i>" ∧
    ((b.afterAll (texts.map (Builder.Event.text {}) ++ [.call (.tag "br") {}])).render {}).value =
      "<p>a &amp;lt; \"b\" &lt;i&gt;<br>" := by
  intro b texts
  have life : b.HasLife := ⟨_, _, rfl⟩
  have notRaw : ¬ ElementKind.Raw b.stack.textKind := by decide +kernel
  have join : String.join texts = "a &lt; \"b\" <i>" := by decide +kernel
  have escaped : escapeText "a &lt; \"b\" <i>" = "a &amp;lt; \"b\" &lt;i&gt;" := by decide +kernel
  obtain ⟨_, _, back, _, rendered⟩ := escapeText_reads_back "a &lt; \"b\" <i>"
  refine ⟨life, notRaw, join, escaped ▸ back, ?_⟩
  rw [rendered b life notRaw texts join]
  decide +kernel

end Hypertext.Escape
