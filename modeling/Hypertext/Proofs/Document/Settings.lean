import Hypertext.Document.ConfigFile
import Hypertext.Proofs.Attributes.Entries
import Hypertext.Proofs.Toml.Laws

/-! # Settings of the root element

A configuration file lists the attributes of the root element by key, and two keys can spell one
name. The setters go by name. So a setter replaces the first entry of its attribute, and whether
that leaves one entry is decided by the file alone. -/

namespace Hypertext

open Toml (Library)
open Attributes (setEntry setEntry_cases named_setEntry_self named_setEntry_of_ne)

/-- The attribute of the root element that a setting is about. -/
def Setting.attribute? : Setting AttributeValue → Option Attribute
  | .lang text => some ⟨"lang", .text text⟩
  | .htmlAttribute identifier value => some ⟨identifier, value⟩
  | .title _ | .viewport _ | .viewportContent _ | .url _ => none

/-- A result that is there is the result. -/
theorem eq_ok_of_toOption {ε α : Type} {x : Except ε α} {a : α} (h : x.toOption = some a) :
    x = .ok a := by
  cases x with
  | error e => cases h
  | ok b =>
    cases h
    rfl

namespace DocumentConfig

theorem html_apply (config : DocumentConfig) (setting : Setting AttributeValue) :
    (config.apply setting).html =
      match setting.attribute? with
      | some a => ⟨setEntry a config.html.entries⟩
      | none => config.html := by
  cases setting <;> rfl

/-- No setting touches an entry behind the first one of its attribute, or adds one there. -/
theorem tail_named_apply (config : DocumentConfig) (setting : Setting AttributeValue)
    (name : String) :
    ((config.apply setting).html.named name).tail = (config.html.named name).tail := by
  rw [html_apply]
  cases setting.attribute? with
  | none => rfl
  | some a =>
    by_cases hn : name = a.name
    · rw [hn]
      show ((Attributes.mk (setEntry a config.html.entries)).named a.name).tail = _
      rw [named_setEntry_self, List.tail_cons]
    · exact congrArg List.tail (named_setEntry_of_ne hn config.html.entries)

theorem tail_named_applyAll (settings : List (Setting AttributeValue)) (config : DocumentConfig)
    (name : String) :
    ((settings.foldl apply config).html.named name).tail = (config.html.named name).tail := by
  induction settings generalizing config with
  | nil => rfl
  | cons setting settings ih =>
    rw [List.foldl_cons, ih, tail_named_apply]

/-- **A setter replaces the first entry.** Whatever configuration was loaded and whatever was set
before, the new entry stands where the first entry of its attribute stood, or last if there was
none. Behind it come all the entries of the attribute that were loaded but the first. So the
attribute has one entry just if it was loaded at most once, and then nothing but the new entry shows
it in the start tag. -/
theorem setter_replaces_first {setter : Setting AttributeValue} {a : Attribute}
    (ha : setter.attribute? = some a) (loaded : DocumentConfig)
    (settings : List (Setting AttributeValue)) :
    let config := settings.foldl apply loaded
    let html := (config.apply setter).html
    html.named a.name = a :: (loaded.html.named a.name).tail ∧
    (html.named a.name = [a] ↔ (loaded.html.named a.name).length ≤ 1) ∧
    ∃ before after, html.entries = before ++ a :: after ∧
      (config.html.entries = before ∧ after = [] ∨
        ∃ old, old.name = a.name ∧ config.html.entries = before ++ old :: after) ∧
      html.html = (Attributes.mk before).html ++ a.html ++ (Attributes.mk after).html ∧
      (∀ e ∈ before, e.name ≠ a.name) ∧
      ((∀ e ∈ after, e.name ≠ a.name) ↔ (loaded.html.named a.name).length ≤ 1) := by
  intro config html
  have set : html = ⟨setEntry a config.html.entries⟩ := by
    show (config.apply setter).html = _
    rw [html_apply, ha]
  have named : html.named a.name = a :: (loaded.html.named a.name).tail := by
    rw [set, named_setEntry_self]
    exact congrArg (a :: ·) (tail_named_applyAll settings loaded a.name)
  have alone : (loaded.html.named a.name).tail = [] ↔ (loaded.html.named a.name).length ≤ 1 := by
    rw [← List.length_eq_zero_iff, List.length_tail]
    omega
  refine ⟨named, ?_, ?_⟩
  · rw [named, ← alone]
    simp
  · -- Where the entry stands is decided by the configuration just before; which entries of its
    -- attribute follow, by the configuration that was loaded.
    have place : ∃ before after, html.entries = before ++ a :: after ∧
        (config.html.entries = before ∧ after = [] ∨
          ∃ old, old.name = a.name ∧ config.html.entries = before ++ old :: after) ∧
        ∀ e ∈ before, e.name ≠ a.name := by
      rw [set]
      rcases setEntry_cases a config.html.entries with
        ⟨others, last⟩ | ⟨before, old, after, split, same, others, replaced⟩
      · exact ⟨config.html.entries, [], last, .inl ⟨rfl, rfl⟩, others⟩
      · exact ⟨before, after, replaced, .inr ⟨old, same, split⟩, others⟩
    obtain ⟨before, after, entries, was, others⟩ := place
    refine ⟨before, after, entries, was, ?_, others, ?_⟩
    · rw [← Attributes.html_split, ← entries]
    · have rest : after.filter (·.name = a.name) = (loaded.html.named a.name).tail := by
        have := named
        rw [Attributes.named, entries, List.filter_append,
          Attributes.filter_eq_nil_of_others others, List.nil_append,
          List.filter_cons_of_pos (by simp)] at this
        exact List.tail_eq_of_cons_eq this
      rw [← alone, ← rest, List.filter_eq_nil_iff]
      simp

/-- The document sets the language and then a class. -/
def languageText : String := "[html]\nlang = \"en\"\nclass = \"a\""

def languageLibrary : Library :=
  .ofDocument languageText [("html", .table [("lang", .string "en"), ("class", .string "a")])]

theorem setter_replaces_first_lang :
    (Setting.lang "fi").attribute? = some ⟨"lang", .text "fi"⟩ ∧
    ∃ loaded, load languageLibrary languageText = .ok loaded ∧
      ((loaded.withTitle "T").withLang "fi").html.named "lang" = [⟨"lang", .text "fi"⟩] ∧
      ((loaded.withTitle "T").withLang "fi").html.html = " lang=fi class=a" := by
  have file : (load languageLibrary languageText).toOption =
      some { html := ⟨[⟨"lang", .text "en"⟩, ⟨"class", .text "a"⟩]⟩ } := by
    decide +kernel
  have lang : (Attribute.mk "lang" (.text "fi")).name = "lang" := by decide +kernel
  have setter : (Setting.lang "fi").attribute? = some ⟨"lang", .text "fi"⟩ := rfl
  obtain ⟨_, single, _⟩ := setter_replaces_first setter
    { html := ⟨[⟨"lang", .text "en"⟩, ⟨"class", .text "a"⟩]⟩ } [.title "T"]
  rw [lang] at single
  exact ⟨setter, _, eq_ok_of_toOption file, single.mpr (by decide +kernel), by decide +kernel⟩

/-- Two keys of the document spell `class`. -/
def spellingsText : String := "[html]\nclass = \"a\"\nclass_ = \"b\""

def spellingsLibrary : Library :=
  .ofDocument spellingsText [("html", .table [("class", .string "a"), ("class_", .string "b")])]

/-- The setter replaces the first of the two entries, and the second is still there. -/
theorem two_spellings_stay :
    spellingsLibrary.Lawful ∧ ∃ loaded, load spellingsLibrary spellingsText = .ok loaded ∧
      (loaded.withHtmlAttribute "class" (.text "c")).html.named "class" =
        [⟨"class", .text "c"⟩, ⟨"class_", .text "b"⟩] ∧
      (loaded.withHtmlAttribute "class" (.text "c")).html.html = " class=c class=b" ∧
      (loaded.withHtmlAttribute "class" (.flag false)).html.html = " class=b" := by
  have file : (load spellingsLibrary spellingsText).toOption =
      some { html := ⟨[⟨"class", .text "a"⟩, ⟨"class_", .text "b"⟩]⟩ } := by
    decide +kernel
  have lawful : spellingsLibrary.Lawful :=
    Library.lawful_ofDocument (by decide +kernel) spellingsText
  exact ⟨lawful, _, eq_ok_of_toOption file, by decide +kernel, by decide +kernel,
    by decide +kernel⟩

end DocumentConfig

end Hypertext
