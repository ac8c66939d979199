import Hypertext.Attributes
import Hypertext.Unicode.Blank

/-! # Reading attributes

The attributes of a start tag are read from the left: a space, a name up to an equals sign or the
next space, and behind an equals sign a value, in quotes or up to the next space. -/

namespace Hypertext

/-- The name has no blank in it, and none of the characters that have a meaning in tags. -/
def PlainName (name : String) : Prop :=
  ∀ c ∈ name.toList, c ∉ ['<', '>', '"', '=', '/'] ∧ Unicode.isBlank c = false

instance (name : String) : Decidable (PlainName name) :=
  List.decidableBAll _ name.toList

theorem PlainName.ne_of_mem {name : String} {c d : Char} (h : PlainName name)
    (hc : c ∈ name.toList) (hd : d ∈ ['<', '>', '"', '=', '/']) : c ≠ d := by
  rintro rfl
  exact (h c hc).1 hd

theorem PlainName.ne_space {name : String} {c : Char} (h : PlainName name)
    (hc : c ∈ name.toList) : c ≠ ' ' := by
  rintro rfl
  have blank : Unicode.isBlank ' ' = true := by decide
  rw [(h ' ' hc).2] at blank
  cases blank

namespace Reading

/-- The value at the front of the text as it is written there, and what comes behind it. -/
def readValue : List Char → Option (String × List Char)
  | '"' :: cs =>
    match cs.dropWhile (· != '"') with
    | [] => none
    | _ :: rest => some (String.ofList (cs.takeWhile (· != '"')), rest)
  | cs => some (String.ofList (cs.takeWhile (· != ' ')), cs.dropWhile (· != ' '))

def isNameChar (c : Char) : Bool :=
  c != ' ' && c != '='

/-- The name at the front of the text with its value, if it has one, and what comes behind. -/
def readAttribute (cs : List Char) : Option ((String × Option String) × List Char) :=
  let name := String.ofList (cs.takeWhile isNameChar)
  match cs.dropWhile isNameChar with
  | '=' :: rest => (readValue rest).map fun (value, rest) => ((name, some value), rest)
  | rest => some ((name, none), rest)

theorem length_dropWhile_le (p : Char → Bool) (cs : List Char) :
    (cs.dropWhile p).length ≤ cs.length :=
  (List.dropWhile_suffix p).length_le

theorem length_readValue {cs rest : List Char} {value : String}
    (h : readValue cs = some (value, rest)) : rest.length ≤ cs.length := by
  unfold readValue at h
  split at h
  · rename_i cs
    split at h
    · cases h
    · rename_i d tail hd
      cases h
      have hle := length_dropWhile_le (· != '"') cs
      rw [hd, List.length_cons] at hle
      rw [List.length_cons]
      omega
  · cases h
    exact length_dropWhile_le _ cs

theorem length_readAttribute {cs rest : List Char} {a : String × Option String}
    (h : readAttribute cs = some (a, rest)) : rest.length ≤ cs.length := by
  have hle := length_dropWhile_le isNameChar cs
  unfold readAttribute at h
  simp only at h
  split at h
  · rename_i tail hd
    obtain ⟨⟨value, rest'⟩, hv, he⟩ := Option.map_eq_some_iff.mp h
    cases he
    have hlen : rest'.length ≤ tail.length := length_readValue hv
    rw [hd, List.length_cons] at hle
    change rest'.length ≤ cs.length
    omega
  · cases h
    exact hle

/-- All attributes, each with its value as it is written. -/
def readAttributes : List Char → Option (List (String × Option String))
  | [] => some []
  | c :: cs =>
    if c = ' ' then
      match _h : readAttribute cs with
      | none => none
      | some (a, rest) => (a :: ·) <$> readAttributes rest
    else none
termination_by cs => cs.length
decreasing_by
  have hle := length_readAttribute _h
  rw [List.length_cons]
  omega

theorem readAttributes_space {cs rest : List Char} {a : String × Option String}
    (h : readAttribute cs = some (a, rest)) :
    readAttributes (' ' :: cs) = (a :: ·) <$> readAttributes rest := by
  rw [readAttributes, if_pos rfl]
  split
  · rename_i hn
    rw [h] at hn
    cases hn
  · rename_i hs
    rw [h] at hs
    cases hs
    rfl

end Reading

/-! ## What is written -/

namespace Attribute

/-- The value between the quotes, if it has quotes. -/
def writtenValue (value : String) : String :=
  if Escape.isBare value.toList then value
  else String.ofList (value.toList.flatMap Escape.quotedReference)

/-- The attribute as it is written, if it is. -/
def written? (a : Attribute) : Option (String × Option String) :=
  match a.value with
  | .flag true => some (a.name, none)
  | .flag false | .absent => none
  | .text value => some (a.name, some (writtenValue value))

end Attribute

namespace Reading

open Escape

theorem textReference_ne {c d e : Char} (h : d ∈ textReference c) (he : e ∈ ['"', '<', '>'])
    (hc : e = '"' → c ≠ '"') : d ≠ e := by
  unfold textReference at h
  simp only [List.mem_cons, List.not_mem_nil, or_false] at he
  split at h
  · rcases he with rfl | rfl | rfl <;> rintro rfl <;> simp at h
  · rcases he with rfl | rfl | rfl <;> rintro rfl <;> simp at h
  · rcases he with rfl | rfl | rfl <;> rintro rfl <;> simp at h
  · rename_i hl hg
    rw [List.mem_singleton.mp h]
    rcases he with rfl | rfl | rfl
    · exact hc rfl
    · exact hl
    · exact hg

theorem quotedReference_ne {c d e : Char} (h : d ∈ quotedReference c) (he : e ∈ ['"', '<', '>']) :
    d ≠ e := by
  unfold quotedReference at h
  split at h
  · simp only [List.mem_cons, List.not_mem_nil, or_false] at he
    rcases he with rfl | rfl | rfl <;> rintro rfl <;> simp at h
  · rename_i hq
    exact textReference_ne h he fun _ => hq

theorem ne_of_isBare {value : List Char} {c d : Char} (h : isBare value = true) (hc : c ∈ value)
    (hd : d ∈ [' ', '"', '<', '>']) : c ≠ d := by
  have other : [' ', '"', '<', '>'].all (!Unicode.isAlphanumeric ·) = true := by decide +kernel
  have alphanumeric := List.all_eq_true.mp (Bool.and_eq_true_iff.mp h).2 c hc
  rintro rfl
  have none := List.all_eq_true.mp other c hd
  rw [alphanumeric] at none
  cases none

/-- A reader stops where the first character comes that it does not take. -/
theorem takeWhile_stops {p : Char → Bool} {cs rest : List Char} (hc : ∀ c ∈ cs, p c = true)
    (hr : ∀ c ∈ rest.head?, p c = false) :
    (cs ++ rest).takeWhile p = cs ∧ (cs ++ rest).dropWhile p = rest := by
  rw [List.takeWhile_append_of_pos hc, List.dropWhile_append_of_pos hc]
  cases rest with
  | nil => simp
  | cons c rest => simp [hr c rfl]

/-- The text is at its end, or another attribute comes. -/
def Separated (rest : List Char) : Prop :=
  ∀ c ∈ rest.head?, c = ' '

/-- A written value is read back, whatever comes behind it. -/
theorem readValue_escapeAttribute (value : String) {rest : List Char} (hr : Separated rest) :
    readValue ((escapeAttribute value).toList ++ rest) =
      some (Attribute.writtenValue value, rest) := by
  unfold escapeAttribute Attribute.writtenValue
  split
  · rename_i hb
    obtain ⟨htake, hdrop⟩ := @takeWhile_stops (· != ' ') value.toList rest
      (fun c hc => by simpa using ne_of_isBare hb hc (by simp))
      (fun c hc => by simp [hr c hc])
    unfold readValue
    split
    · rename_i cs he
      -- a bare value has a first character, and it is no quote
      cases hv : value.toList with
      | nil => simp [hv, isBare] at hb
      | cons c tail =>
        rw [hv, List.cons_append] at he
        cases he
        exact absurd rfl (ne_of_isBare hb (hv ▸ List.mem_cons_self) (by simp))
    · simp [htake, hdrop]
  · obtain ⟨htake, hdrop⟩ := @takeWhile_stops (· != '"') (value.toList.flatMap quotedReference)
      ('"' :: rest)
      (fun c hc => by
        obtain ⟨d, _, hd⟩ := List.mem_flatMap.mp hc
        simpa using quotedReference_ne hd (by simp))
      (fun c hc => by cases hc; rfl)
    simp [readValue, htake, hdrop]

theorem ne_of_mem_escapeAttribute {value : String} {c d : Char}
    (hc : c ∈ (escapeAttribute value).toList) (hd : d ∈ ['<', '>']) : c ≠ d := by
  unfold escapeAttribute at hc
  split at hc
  · rename_i hb
    exact ne_of_isBare hb hc (List.mem_cons_of_mem _ (List.mem_cons_of_mem _ hd))
  · simp only [String.toList_ofList, List.cons_append, List.mem_cons, List.mem_append,
      List.mem_flatMap, List.not_mem_nil, or_false] at hc
    rcases hc with rfl | ⟨e, _, hc⟩ | rfl
    · rintro rfl
      simp at hd
    · exact quotedReference_ne hc (List.mem_cons_of_mem _ hd)
    · rintro rfl
      simp at hd

theorem readAttribute_name {name rest : List Char} (hn : ∀ c ∈ name, isNameChar c = true)
    (hr : Separated rest) :
    readAttribute (name ++ rest) = some ((String.ofList name, none), rest) := by
  obtain ⟨htake, hdrop⟩ := takeWhile_stops hn fun c hc => by rw [hr c hc]; rfl
  rw [readAttribute, htake, hdrop]
  split
  · cases hr '=' rfl
  · rfl

theorem readAttribute_value {name rest more : List Char} {value : String}
    (hn : ∀ c ∈ name, isNameChar c = true) (hv : readValue rest = some (value, more)) :
    readAttribute (name ++ '=' :: rest) = some ((String.ofList name, some value), more) := by
  obtain ⟨htake, hdrop⟩ := @takeWhile_stops isNameChar name ('=' :: rest) hn
    (fun c hc => by cases hc; rfl)
  simp only [readAttribute, htake, hdrop, hv, Option.map_some]

theorem html_cons (a : Attribute) (as : List Attribute) :
    (Attributes.html ⟨a :: as⟩).toList = a.html.toList ++ (Attributes.html ⟨as⟩).toList := by
  simp [Attributes.html, String.toList_join]

/-- No attribute ends the tag that it stands in. -/
theorem ne_of_mem_html {as : List Attribute} (h : ∀ a ∈ as, PlainName a.name) :
    ∀ c ∈ (Attributes.html ⟨as⟩).toList, c ≠ '>' := by
  induction as with
  | nil => simp [Attributes.html]
  | cons a as ih =>
    obtain ⟨ha, has⟩ := List.forall_mem_cons.mp h
    have hn : ∀ c ∈ a.name.toList, c ≠ '>' := fun c hc => ha.ne_of_mem hc (by simp)
    have hv (value : String) : ∀ c ∈ (escapeAttribute value).toList, c ≠ '>' :=
      fun c hc => ne_of_mem_escapeAttribute hc (by simp)
    intro c hc
    rw [html_cons] at hc
    rcases List.mem_append.mp hc with hc | hc
    · unfold Attribute.html at hc
      split at hc
      · simp at hc
        rcases hc with rfl | hc
        · decide
        · exact hn c hc
      · simp at hc
      · simp at hc
      · rename_i value _
        simp at hc
        rcases hc with rfl | hc | rfl | hc
        · decide
        · exact hn c hc
        · decide
        · exact hv value c hc
    · exact ih has c hc

theorem separated_html (as : List Attribute) : Separated (Attributes.html ⟨as⟩).toList := by
  induction as with
  | nil => simp [Separated, Attributes.html]
  | cons a as ih =>
    rw [html_cons]
    unfold Attribute.html
    split
    · simp [Separated]
    · simpa using ih
    · simpa using ih
    · simp [Separated]

/-- The attributes are read as they were written. -/
theorem readAttributes_html {as : List Attribute} (h : ∀ a ∈ as, PlainName a.name) :
    readAttributes (Attributes.html ⟨as⟩).toList = some (as.filterMap Attribute.written?) := by
  induction as with
  | nil => simp [Attributes.html, readAttributes]
  | cons a as ih =>
    obtain ⟨ha, has⟩ := List.forall_mem_cons.mp h
    have hn : ∀ c ∈ a.name.toList, isNameChar c = true := fun c hc => by
      simp [isNameChar, ha.ne_space hc, ha.ne_of_mem hc]
    have hr := separated_html as
    rw [html_cons]
    cases hv : a.value with
    | flag set =>
      cases set with
      | false => simp [Attribute.html, hv, ih has, Attribute.written?]
      | true =>
        have hread := readAttributes_space (readAttribute_name hn hr)
        simp [Attribute.html, hv, ih has, Attribute.written?, hread]
    | absent => simp [Attribute.html, hv, ih has, Attribute.written?]
    | text value =>
      have hvalue := readValue_escapeAttribute value hr
      have hread := readAttributes_space (readAttribute_value hn hvalue)
      simp [Attribute.html, hv, ih has, Attribute.written?, hread]

end Reading

end Hypertext
