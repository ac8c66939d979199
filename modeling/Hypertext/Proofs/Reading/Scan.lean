import Hypertext.Proofs.Reading.References

/-! # Reading references in one scan

A scan from the left takes a text apart into references and the characters between them. It goes on
behind what it has taken, so what a reference is read as is never looked at again. Since no reference
has another ampersand in it, the scan meets every reference of the text, whatever stands before it. -/

namespace Hypertext.Escape

/-- The references that are read. -/
inductive Reference where
  | ampersand
  | quote
  | greater
  | less
deriving DecidableEq, Repr

namespace Reference

def written : Reference → List Char
  | ampersand => ['&', 'a', 'm', 'p', ';']
  | quote => ['&', 'q', 'u', 'o', 't', ';']
  | greater => ['&', 'g', 't', ';']
  | less => ['&', 'l', 't', ';']

def character : Reference → Char
  | ampersand => '&'
  | quote => '"'
  | greater => '>'
  | less => '<'

theorem character_mem (r : Reference) : r.character ∈ referenced := by
  cases r <;> decide

theorem written_eq (r : Reference) : r.written = quotedReference r.character := by
  cases r <;> rfl

theorem exists_of_mem {d : Char} (hd : d ∈ referenced) : ∃ r : Reference, r.character = d := by
  simp only [referenced, List.mem_cons, List.not_mem_nil, or_false] at hd
  obtain rfl | rfl | rfl | rfl := hd
  · exact ⟨.ampersand, rfl⟩
  · exact ⟨.quote, rfl⟩
  · exact ⟨.greater, rfl⟩
  · exact ⟨.less, rfl⟩

/-- An ampersand begins the reference, and no other one is in it. -/
theorem exists_written (r : Reference) : ∃ w, r.written = '&' :: w ∧ '&' ∉ w := by
  cases r <;> exact ⟨_, rfl, by decide⟩

end Reference

/-- What the scan takes from the text at once. -/
inductive Lexeme where
  | reference (r : Reference)
  | character (c : Char)
deriving DecidableEq, Repr

namespace Lexeme

/-- The lexeme as it stands in the text. -/
def written : Lexeme → List Char
  | reference r => r.written
  | character c => [c]

/-- The character that the lexeme is read as. -/
def read : Lexeme → Char
  | reference r => r.character
  | character c => c

end Lexeme

/-- The lexemes of the text. -/
def scan : List Char → List Lexeme
  | '&' :: 'a' :: 'm' :: 'p' :: ';' :: cs => .reference .ampersand :: scan cs
  | '&' :: 'q' :: 'u' :: 'o' :: 't' :: ';' :: cs => .reference .quote :: scan cs
  | '&' :: 'g' :: 't' :: ';' :: cs => .reference .greater :: scan cs
  | '&' :: 'l' :: 't' :: ';' :: cs => .reference .less :: scan cs
  | c :: cs => .character c :: scan cs
  | [] => []

variable {c : Char} {cs : List Char}

/-! ## Steps of the scan -/

theorem scan_reference (r : Reference) (cs : List Char) :
    scan (r.written ++ cs) = .reference r :: scan cs := by
  cases r <;> rfl

theorem scan_character (h : ∀ r : Reference, ¬ r.written <+: c :: cs) :
    scan (c :: cs) = .character c :: scan cs := by
  rw [scan]
  · rintro rest rfl rfl
    exact h .ampersand (List.prefix_append _ rest)
  · rintro rest rfl rfl
    exact h .quote (List.prefix_append _ rest)
  · rintro rest rfl rfl
    exact h .greater (List.prefix_append _ rest)
  · rintro rest rfl rfl
    exact h .less (List.prefix_append _ rest)

/-- A text goes on behind each of its references, and behind each character where none begins. -/
@[elab_as_elim]
theorem scan_induction {motive : List Char → Prop} (nil : motive [])
    (reference : ∀ (r : Reference) cs, motive cs → motive (r.written ++ cs))
    (character : ∀ c cs, (∀ r : Reference, ¬ r.written <+: c :: cs) → motive cs →
      motive (c :: cs))
    (text : List Char) : motive text := by
  have ne : ∀ p, (∃ r : Reference, p = r.written) → p ≠ [] := by
    rintro p ⟨r, rfl⟩
    obtain ⟨w, hw, _⟩ := r.exists_written
    rw [hw]
    exact List.cons_ne_nil _ _
  induction text using pattern_induction ne with
  | nil => exact nil
  | found p cs hp ih =>
    obtain ⟨r, rfl⟩ := hp
    exact reference r cs ih
  | other c cs free ih => exact character c cs (fun r => free _ ⟨r, rfl⟩) ih

/-- The lexemes are the text, nothing left out. -/
theorem flatMap_written_scan (text : List Char) : (scan text).flatMap Lexeme.written = text := by
  induction text using scan_induction with
  | nil => rfl
  | reference r cs ih =>
    rw [scan_reference, List.flatMap_cons, ih]
    rfl
  | character c cs h ih =>
    rw [scan_character h, List.flatMap_cons, ih]
    rfl

/-- What stands at the front of a text and has no ampersand in it ends before any ampersand. -/
theorem prefix_of_prefix_ampersand {w xs rest : List Char} (hw : '&' ∉ w)
    (h : w <+: xs ++ '&' :: rest) : w <+: xs := by
  rcases List.prefix_or_prefix_of_prefix h (List.prefix_append xs _) with short | long
  · exact short
  · obtain ⟨more, rfl⟩ := long
    rw [List.prefix_append_right_inj] at h
    cases more with
    | nil => rw [List.append_nil]
    | cons x more =>
      rw [List.cons_prefix_cons] at h
      rw [h.1] at hw
      exact absurd (List.mem_append_right xs List.mem_cons_self) hw

/-- Where an ampersand stands, the scan starts anew. -/
theorem scan_append (text rest : List Char) :
    scan (text ++ '&' :: rest) = scan text ++ scan ('&' :: rest) := by
  induction text using scan_induction with
  | nil => rfl
  | reference r cs ih =>
    rw [List.append_assoc, scan_reference, scan_reference, ih, List.cons_append]
  | character c cs h ih =>
    have unread : ∀ r : Reference, ¬ r.written <+: c :: (cs ++ '&' :: rest) := by
      intro r hr
      obtain ⟨w, hw, plain⟩ := r.exists_written
      rw [hw, List.cons_prefix_cons] at hr
      refine h r ?_
      rw [hw]
      exact List.cons_prefix_cons.mpr ⟨hr.1, prefix_of_prefix_ampersand plain hr.2⟩
    rw [List.cons_append, scan_character unread, scan_character h, ih, List.cons_append]

/-! ## What is read -/

/-- The pass that reads all references reads the lexemes. -/
theorem decode_eq_map_read (text : List Char) :
    decode referenced text = (scan text).map Lexeme.read := by
  induction text using scan_induction with
  | nil => exact decode_nil _
  | reference r cs ih =>
    rw [scan_reference, List.map_cons, ← ih, r.written_eq]
    exact decode_reference (fun _ h => h) r.character_mem
  | character c cs h ih =>
    have unread : ∀ d ∈ referenced, ¬ quotedReference d <+: c :: cs := by
      intro d hd hp
      obtain ⟨r, rfl⟩ := Reference.exists_of_mem hd
      exact h r (r.written_eq ▸ hp)
    rw [scan_character h, List.map_cons, ← ih, decode_cons unread]
    rfl

/-- **Every reference is read, and none is read twice.** To take references back one kind after the
other is to scan the text once and to read each lexeme as its character. The lexemes are the whole
text, and every reference, wherever it stands in a text, is a lexeme of it. -/
theorem unescape_reads_lexemes (text : String) :
    unescape text = String.ofList ((scan text.toList).map Lexeme.read) ∧
    (scan text.toList).flatMap Lexeme.written = text.toList ∧
    ∀ (before : List Char) (r : Reference) (behind : List Char),
      scan (before ++ r.written ++ behind) = scan before ++ .reference r :: scan behind := by
  refine ⟨?_, flatMap_written_scan _, ?_⟩
  · apply String.toList_inj.mp
    rw [toList_unescape, decode_eq_map_read, String.toList_ofList]
  · intro before r behind
    obtain ⟨w, hw, _⟩ := r.exists_written
    rw [List.append_assoc, ← scan_reference, hw]
    exact scan_append before (w ++ behind)

/-- The ampersand that is read begins no reference with what follows it. -/
example : unescape "&amp;lt; &am&lt;p;" = "&lt; &am<p;" := by decide +kernel

end Hypertext.Escape
