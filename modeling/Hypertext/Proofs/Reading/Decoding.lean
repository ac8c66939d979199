import Hypertext.Proofs.Reading.Attributes
import Hypertext.Proofs.Reading.References

/-! # Decoding attributes

Who reads the attributes of a start tag takes each name as it stands and each value without its
quotes and references. What is found is what was given, less what is never written. -/

namespace Hypertext

/-- What a reader learns of the attribute, if it is written: its name, and its text if it has one.
-/
def Attribute.told? (a : Attribute) : Option (String × Option String) :=
  match a.value with
  | .flag true => some (a.name, none)
  | .flag false | .absent => none
  | .text value => some (a.name, some value)

namespace Reading

open Escape

/-- A name with its value, the references in it taken back. -/
def unescapeValue (a : String × Option String) : String × Option String :=
  (a.1, a.2.map unescape)

/-- All attributes of the text, which has nothing else in it. -/
def decodeAttributes (text : String) : Option (List (String × Option String)) :=
  (readAttributes text.toList).map (·.map unescapeValue)

theorem decode_of_isBare {value : List Char} (h : isBare value = true) :
    decode referenced value = value := by
  have amp : Unicode.isAlphanumeric '&' = false := by decide +kernel
  have plain : ∀ c ∈ value, c ≠ '&' := by
    rintro c hc rfl
    have alphanumeric := List.all_eq_true.mp (Bool.and_eq_true_iff.mp h).2 _ hc
    rw [amp] at alphanumeric
    cases alphanumeric
  have passed : decode referenced (value ++ []) = value ++ decode referenced [] :=
    decode_append_of_ne (fun _ h => h) plain
  rwa [decode_nil, List.append_nil] at passed

/-- The value is told whether it is written bare or in quotes. -/
theorem unescape_writtenValue (value : String) :
    unescape (Attribute.writtenValue value) = value := by
  apply String.toList_inj.mp
  rw [toList_unescape]
  unfold Attribute.writtenValue
  split
  · rename_i hb
    exact decode_of_isBare hb
  · rw [String.toList_ofList, decode_flatMap_quotedReference]

theorem map_written? (a : Attribute) : a.written?.map unescapeValue = a.told? := by
  unfold Attribute.written? Attribute.told?
  cases a.value with
  | flag set => cases set <;> rfl
  | absent => rfl
  | text value => simp [unescapeValue, unescape_writtenValue]

/-- **Decoding undoes serialization.** The written attributes are read to their end, and what is
read are the names and texts that were given, in order, without the entries that are not written.
The names have no blank and no character of a tag in them; the texts are any. -/
theorem decodeAttributes_html {as : Attributes} (h : ∀ a ∈ as.entries, PlainName a.name) :
    decodeAttributes as.html = some (as.entries.filterMap Attribute.told?) := by
  have read := readAttributes_html h
  have told : Attribute.told? = fun a => a.written?.map unescapeValue :=
    funext fun a => (map_written? a).symm
  rw [decodeAttributes, read, Option.map_some, List.map_filterMap, told]

/-- An attribute of each kind, with texts that look like references, quotes and attributes. -/
def mixedAttributes : Attributes :=
  ⟨[⟨"data_note", .text "x=\"1\" &lt; &amp;quot; <b>"⟩, ⟨"hidden", .flag false⟩,
    ⟨"checked", .flag true⟩, ⟨"title", .absent⟩, ⟨"class_", .text "päivä"⟩, ⟨"alt", .text ""⟩]⟩

theorem decodeAttributes_html_mixed :
    (∀ a ∈ mixedAttributes.entries, PlainName a.name) ∧
    mixedAttributes.html =
      " data-note=\"x=&quot;1&quot; &amp;lt; &amp;amp;quot; &lt;b&gt;\"" ++
        " checked class=päivä alt=\"\"" ∧
    decodeAttributes mixedAttributes.html =
      some [("data-note", some "x=\"1\" &lt; &amp;quot; <b>"), ("checked", none),
        ("class", some "päivä"), ("alt", some "")] := by
  have plain : ∀ a ∈ mixedAttributes.entries, PlainName a.name := by decide +kernel
  refine ⟨plain, by decide +kernel, ?_⟩
  rw [decodeAttributes_html plain]
  decide +kernel

end Reading

end Hypertext
