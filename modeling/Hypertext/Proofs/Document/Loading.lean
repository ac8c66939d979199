import Hypertext.Proofs.Document.Parts
import Hypertext.Proofs.Document.Settings
import Hypertext.Proofs.Toml.Laws
import Mathlib.Data.List.Induction
import Mathlib.Data.List.Nodup

/-! # Loading a configuration

A document makes a configuration just if each of its keys is one that a configuration has and comes
with a value that the key takes. Since no key is there twice, each entry is still in the
configuration when all the others have been read; the first entry that is wrong decides the error.
This holds for each library that is lawful. -/

namespace Hypertext

open Toml (Library Value)

/-! ## Values -/

variable {lib : Library} {v : Value} {key : String} {text : String} {entries : List (String × Value)}

theorem readText_eq_ok_iff : readText v = .ok text ↔ v = .string text := by
  cases v <;> simp [readText]

theorem mapM_readText_eq_ok_iff {items : List Value} {texts : List String} :
    items.mapM readText = .ok texts ↔ items = texts.map .string := by
  constructor
  · intro h
    have read := forall₂_of_mapM_eq_ok h
    clear h
    induction read with
    | nil => rfl
    | cons first _ ih => rw [List.map_cons, readText_eq_ok_iff.mp first, ih]
  · intro h
    rw [h]
    clear h
    induction texts with
    | nil => rfl
    | cons text texts ih =>
      rw [List.map_cons, List.mapM_cons, ih]
      rfl

theorem readTexts_eq_ok_iff {texts : List String} :
    readTexts v = .ok texts ↔ v = .array (texts.map .string) := by
  cases v <;> simp [readTexts, mapM_readText_eq_ok_iff]

theorem Attributes.ofToml_table (lawful : lib.Lawful) (plain : (Value.table entries).Plain) :
    Attributes.ofToml lib (.table entries) = .ok ⟨entries.map fun e => ⟨e.1, .ofToml lib e.2⟩⟩ := by
  rw [Attributes.ofToml, lawful.inOrder plain]
  rfl

theorem Attributes.ofToml_of_no_table (lawful : lib.Lawful) (noTable : ∀ entries, v ≠ .table entries)
    (noDate : ¬ v.isDatetime) : ∃ e, Attributes.ofToml lib v = .error e := by
  obtain ⟨e, error⟩ := lawful.onlyTables noTable noDate
  refine ⟨e, ?_⟩
  rw [Attributes.ofToml, error]
  rfl

/-- The attribute has the value as a document says it. -/
inductive AttributeValue.Shows (lib : Library) : AttributeValue → Value → Prop where
  | flag (b : Bool) : Shows lib (.flag b) (.boolean b)
  | text (s : String) : Shows lib (.text s) (.string s)
  | display {v : Value} (noFlag : ∀ b, v ≠ .boolean b) (noText : ∀ s, v ≠ .string s) :
      Shows lib (.text (lib.display v)) v

namespace AttributeValue

theorem shows_ofToml (lib : Library) (v : Value) : (ofToml lib v).Shows lib v := by
  cases v with
  | boolean b => exact .flag b
  | string s => exact .text s
  | integer | float | datetime | array | table =>
    exact .display (fun _ => nofun) (fun _ => nofun)

theorem Shows.ne_absent {a : AttributeValue} (h : a.Shows lib v) : a ≠ .absent := by
  cases h <;> nofun

end AttributeValue

/-- The attribute is that of an entry of the table. -/
structure Attribute.Shows (lib : Library) (a : Attribute) (e : String × Value) : Prop where
  identifier : a.identifier = e.1
  value : a.value.Shows lib e.2

theorem Attribute.shows_all {as : List Attribute} (h : List.Forall₂ (Shows lib) as entries) :
    as.map (·.identifier) = entries.map (·.1) ∧ ∀ a ∈ as, a.value ≠ .absent := by
  induction h with
  | nil => exact ⟨rfl, nofun⟩
  | cons first _ ih =>
    rw [List.map_cons, List.map_cons, first.identifier, ih.1, List.forall_mem_cons]
    exact ⟨rfl, first.value.ne_absent, ih.2⟩

namespace DocumentConfig

/-! ## One entry -/

/-- A key of configurations, with a value that it takes. -/
inductive Takes : String → Value → Prop where
  | title (text : String) : Takes "title" (.string text)
  | html (entries : List (String × Value)) : Takes "html" (.table entries)
  | viewport (enabled : Bool) : Takes "viewport" (.boolean enabled)
  | viewportContent (text : String) : Takes "viewport" (.string text)
  | urls (texts : List String) : Takes "urls" (.array (texts.map .string))

/-- The configuration has what the entry says. -/
inductive Has (lib : Library) (config : DocumentConfig) : String → Value → Prop where
  | title {text : String} (h : config.title = some text) : Has lib config "title" (.string text)
  /-- There is one attribute for each entry of the table, in the same order. -/
  | html {entries : List (String × Value)}
      (h : List.Forall₂ (Attribute.Shows lib) config.html.entries entries) :
      Has lib config "html" (.table entries)
  | viewportOff (h : config.viewport = none) : Has lib config "viewport" (.boolean false)
  | viewportOn (h : config.viewport = some defaultViewport) :
      Has lib config "viewport" (.boolean true)
  | viewportContent {text : String} (h : config.viewport = some text) :
      Has lib config "viewport" (.string text)
  | urls {texts : List String} (h : config.urls = texts) :
      Has lib config "urls" (.array (texts.map .string))

/-- The configurations differ in nothing but what the key is about. -/
structure SameBut (key : String) (config config' : DocumentConfig) : Prop where
  title : key ≠ "title" → config'.title = config.title
  html : key ≠ "html" → config'.html = config.html
  viewport : key ≠ "viewport" → config'.viewport = config.viewport
  urls : key ≠ "urls" → config'.urls = config.urls

variable {config config' : DocumentConfig}

theorem Has.of_sameBut {other : String} (h : Has lib config key v) (ne : other ≠ key)
    (same : SameBut other config config') : Has lib config' key v := by
  cases h with
  | title h => exact .title ((same.title ne).trans h)
  | html h =>
    refine .html ?_
    rw [same.html ne]
    exact h
  | viewportOff h => exact .viewportOff ((same.viewport ne).trans h)
  | viewportOn h => exact .viewportOn ((same.viewport ne).trans h)
  | viewportContent h => exact .viewportContent ((same.viewport ne).trans h)
  | urls h => exact .urls ((same.urls ne).trans h)

theorem Has.html_shown (h : Has lib config key v) (hk : key = "html") :
    ∃ entries, v = .table entries ∧
      List.Forall₂ (Attribute.Shows lib) config.html.entries entries := by
  cases h with
  | html shown => exact ⟨_, rfl, shown⟩
  | title | viewportOff | viewportOn | viewportContent | urls => exact absurd hk (by decide)

/-- An entry that a configuration takes is read, whatever was read before. -/
theorem readEntry_of_takes (lawful : lib.Lawful) (h : Takes key v) (plain : v.Plain)
    (config : DocumentConfig) :
    ∃ config', config.readEntry lib key v = .ok config' ∧ Has lib config' key v ∧
      SameBut key config config' := by
  cases h with
  | title text =>
    refine ⟨{ config with title := some text }, rfl, .title rfl, ?_⟩
    exact ⟨fun h => absurd rfl h, fun _ => rfl, fun _ => rfl, fun _ => rfl⟩
  | html entries =>
    refine ⟨{ config with html := ⟨entries.map fun e => ⟨e.1, .ofToml lib e.2⟩⟩ }, ?_, .html ?_, ?_⟩
    · simp [readEntry, Attributes.ofToml_table lawful plain]
    · rw [List.forall₂_map_left_iff, List.forall₂_same]
      exact fun e _ => ⟨rfl, AttributeValue.shows_ofToml lib e.2⟩
    · exact ⟨fun _ => rfl, fun h => absurd rfl h, fun _ => rfl, fun _ => rfl⟩
  | viewport enabled =>
    refine ⟨config.withViewport enabled, rfl, ?_, ?_⟩
    · cases enabled with
      | false => exact .viewportOff rfl
      | true => exact .viewportOn rfl
    · exact ⟨fun _ => rfl, fun _ => rfl, fun h => absurd rfl h, fun _ => rfl⟩
  | viewportContent text =>
    refine ⟨config.withViewportContent text, rfl, .viewportContent rfl, ?_⟩
    exact ⟨fun _ => rfl, fun _ => rfl, fun h => absurd rfl h, fun _ => rfl⟩
  | urls texts =>
    refine ⟨{ config with urls := texts }, ?_, .urls rfl, ?_⟩
    · simp [readEntry, readTexts_eq_ok_iff.mpr rfl]
    · exact ⟨fun _ => rfl, fun _ => rfl, fun _ => rfl, fun h => absurd rfl h⟩

/-- The error about any other entry does not depend on what was read before. -/
theorem readEntry_of_not_takes (lawful : lib.Lawful) (h : ¬ Takes key v)
    (noDate : key = "html" → ¬ v.isDatetime) :
    ∃ e, ∀ config : DocumentConfig, config.readEntry lib key v = .error e := by
  by_cases title : key = "title"
  · subst title
    cases hr : readText v with
    | error e => exact ⟨e, fun config => by simp [readEntry, hr]⟩
    | ok text =>
      rw [readText_eq_ok_iff.mp hr] at h
      exact absurd (.title text) h
  by_cases html : key = "html"
  · subst html
    have noTable : ∀ entries, v ≠ .table entries := by
      rintro entries rfl
      exact h (.html entries)
    obtain ⟨e, error⟩ := Attributes.ofToml_of_no_table lawful noTable (noDate rfl)
    exact ⟨e, fun config => by simp [readEntry, error]⟩
  by_cases viewport : key = "viewport"
  · subst viewport
    cases v with
    | boolean enabled => exact absurd (.viewport enabled) h
    | string text => exact absurd (.viewportContent text) h
    | integer | float | datetime | array | table => exact ⟨.wrongViewport, fun _ => rfl⟩
  by_cases urls : key = "urls"
  · subst urls
    cases hr : readTexts v with
    | error e => exact ⟨e, fun config => by simp [readEntry, hr]⟩
    | ok texts =>
      rw [readTexts_eq_ok_iff.mp hr] at h
      exact absurd (.urls texts) h
  exact ⟨.unknownField key, fun config => by simp [readEntry, title, html, viewport, urls]⟩

/-! ## All entries -/

/-- The configuration has what the entries say, and nothing else. -/
structure Describes (lib : Library) (entries : List (String × Value)) (config : DocumentConfig) :
    Prop where
  entry : ∀ e ∈ entries, Has lib config e.1 e.2
  noTitle : "title" ∉ entries.map (·.1) → config.title = none
  noHtml : "html" ∉ entries.map (·.1) → config.html = {}
  noViewport : "viewport" ∉ entries.map (·.1) → config.viewport = none
  noUrls : "urls" ∉ entries.map (·.1) → config.urls = []

theorem not_mem_keys_of_concat {k : String} (hk : k ∉ (entries ++ [(key, v)]).map (·.1)) :
    key ≠ k ∧ k ∉ entries.map (·.1) := by
  rw [List.map_append, List.mem_append, not_or, List.map_singleton, List.mem_singleton] at hk
  exact ⟨Ne.symm hk.2, hk.1⟩

/-- An entry of a new key comes to the others. -/
theorem Describes.concat (h : Describes lib entries config) (new : key ∉ entries.map (·.1))
    (has : Has lib config' key v) (same : SameBut key config config') :
    Describes lib (entries ++ [(key, v)]) config' where
  entry e he := by
    rcases List.mem_append.mp he with he | he
    · have ne : key ≠ e.1 := fun eq => new (eq ▸ List.mem_map_of_mem he)
      exact (h.entry e he).of_sameBut ne same
    · rw [List.mem_singleton.mp he]
      exact has
  noTitle hk :=
    have ⟨ne, others⟩ := not_mem_keys_of_concat hk
    (same.title ne).trans (h.noTitle others)
  noHtml hk :=
    have ⟨ne, others⟩ := not_mem_keys_of_concat hk
    (same.html ne).trans (h.noHtml others)
  noViewport hk :=
    have ⟨ne, others⟩ := not_mem_keys_of_concat hk
    (same.viewport ne).trans (h.noViewport others)
  noUrls hk :=
    have ⟨ne, others⟩ := not_mem_keys_of_concat hk
    (same.urls ne).trans (h.noUrls others)

theorem ofEntries_concat (lib : Library) (entries : List (String × Value)) (e : String × Value) :
    ofEntries lib (entries ++ [e]) =
      (do let config ← ofEntries lib entries; config.readEntry lib e.1 e.2) := by
  rw [ofEntries, List.foldlM_append]
  simp only [List.foldlM_cons, List.foldlM_nil, bind_pure]
  rfl

/-- The induction takes the last entry off: it is read when all the others have been. -/
theorem ofEntries_of_takes (lawful : lib.Lawful) (takes : ∀ e ∈ entries, Takes e.1 e.2)
    (plain : ∀ e ∈ entries, e.2.Plain) (once : (entries.map (·.1)).Nodup) :
    ∃ config, ofEntries lib entries = .ok config ∧ Describes lib entries config := by
  induction entries using List.reverseRecOn with
  | nil =>
    refine ⟨{}, rfl, ?_, fun _ => rfl, fun _ => rfl, fun _ => rfl, fun _ => rfl⟩
    exact List.forall_mem_nil _
  | append_singleton entries e ih =>
    rw [List.forall_mem_append] at takes plain
    rw [List.map_append, List.map_singleton, ← List.concat_eq_append, List.nodup_concat] at once
    obtain ⟨config, read, described⟩ := ih takes.1 plain.1 once.2
    have last := List.mem_singleton_self e
    obtain ⟨config', next, has, same⟩ :=
      readEntry_of_takes lawful (takes.2 e last) (plain.2 e last) config
    refine ⟨config', ?_, described.concat once.1 has same⟩
    rw [ofEntries_concat, read]
    exact next

theorem ofEntries_of_error {before after : List (String × Value)} {e : ConfigError}
    (read : ofEntries lib before = .ok config) (wrong : config.readEntry lib key v = .error e) :
    ofEntries lib (before ++ (key, v) :: after) = .error e := by
  rw [List.append_cons, ofEntries, List.foldlM_append]
  show (do let config ← ofEntries lib (before ++ [(key, v)]); _) = _
  rw [ofEntries_concat, read]
  show (do let config ← config.readEntry lib key v; _) = _
  rw [wrong]
  rfl

/-- Of entries that are not all taken, the first that is not decides. -/
theorem ofEntries_of_not_takes (lawful : lib.Lawful) (wrong : ¬ ∀ e ∈ entries, Takes e.1 e.2)
    (plain : ∀ e ∈ entries, e.2.Plain) (once : (entries.map (·.1)).Nodup)
    (noDate : ∀ e ∈ entries, e.1 = "html" → ¬ e.2.isDatetime) :
    ∃ before key v after e, entries = before ++ (key, v) :: after ∧
      (∀ e ∈ before, Takes e.1 e.2) ∧ ¬ Takes key v ∧
      (∀ config : DocumentConfig, config.readEntry lib key v = .error e) ∧
      ofEntries lib entries = .error e := by
  classical
  obtain ⟨first, found⟩ : ∃ first, entries.find? (fun e => ¬ Takes e.1 e.2) = some first := by
    rw [← Option.isSome_iff_exists, List.find?_isSome]
    simpa using wrong
  obtain ⟨notTaken, before, after, rfl, taken⟩ := List.find?_eq_some_iff_append.mp found
  obtain ⟨key, v⟩ := first
  have notTaken : ¬ Takes key v := by simpa using notTaken
  have taken : ∀ e ∈ before, Takes e.1 e.2 := by simpa using taken
  have inFront : before.Sublist (before ++ (key, v) :: after) := List.sublist_append_left ..
  -- The error is the same for whatever configuration is made of the entries in front.
  obtain ⟨config, read, _⟩ := ofEntries_of_takes lawful taken
    (fun e he => plain e (inFront.subset he)) ((inFront.map _).nodup once)
  obtain ⟨e, error⟩ := readEntry_of_not_takes lawful notTaken (noDate (key, v) (by simp))
  exact ⟨before, key, v, after, e, rfl, taken, notTaken, error,
    ofEntries_of_error read (error config)⟩

/-! ## Documents -/

/-- A table is read to one attribute for each of its keys. -/
theorem Describes.html_entries (h : Describes lib entries config)
    (once : (Value.table entries).KeysOnce) :
    (config.html.entries.map (·.identifier)).Nodup ∧
      ∀ a ∈ config.html.entries, a.value ≠ .absent := by
  by_cases hk : "html" ∈ entries.map (·.1)
  · obtain ⟨e, he, key⟩ := List.mem_map.mp hk
    obtain ⟨table, value, shown⟩ := (h.entry e he).html_shown key
    have inside := (Value.everyTable_table.mp once).2 e he
    rw [value, Value.everyTable_table] at inside
    obtain ⟨identifiers, present⟩ := Attribute.shows_all shown
    rw [identifiers]
    exact ⟨inside.1, present⟩
  · rw [h.noHtml hk]
    exact ⟨List.nodup_nil, nofun⟩

/-- **A configuration is what its document says.** Take a document in which no table stands for a
date or time, and `html` is none. A configuration results just if every key is one that
configurations have and comes with a value that it takes. Then the configuration has what each entry
says, and is empty where there is none; for each key of the `html` table there is one attribute, in
the same order, and none of them is absent. Otherwise the first wrong entry decides the error, and no
configuration results. -/
theorem configuration_of_document (lawful : lib.Lawful) (document : lib.document? text = some entries)
    (plain : (Value.table entries).Plain)
    (noDate : ∀ e ∈ entries, e.1 = "html" → ¬ e.2.isDatetime) :
    ((∃ config, load lib text = .ok config) ↔ ∀ e ∈ entries, Takes e.1 e.2) ∧
    (∀ config, load lib text = .ok config →
      Describes lib entries config ∧ (config.html.entries.map (·.identifier)).Nodup ∧
        ∀ a ∈ config.html.entries, a.value ≠ .absent) ∧
    ((¬ ∀ e ∈ entries, Takes e.1 e.2) →
      ∃ before key v after e, entries = before ++ (key, v) :: after ∧
        (∀ e ∈ before, Takes e.1 e.2) ∧ ¬ Takes key v ∧
        (∀ config : DocumentConfig, config.readEntry lib key v = .error e) ∧
        load lib text = .error e) := by
  have loaded : load lib text = ofEntries lib entries := by
    rw [load, document]
  rw [loaded]
  have once := lawful.keysOnce document
  have topOnce := (Value.everyTable_table.mp once).1
  have allPlain := (Value.everyTable_table.mp plain).2
  have made := fun takes => ofEntries_of_takes lawful takes allPlain topOnce
  have refused := fun wrong => ofEntries_of_not_takes lawful wrong allPlain topOnce noDate
  have takes {config : DocumentConfig} (read : ofEntries lib entries = .ok config) :
      ∀ e ∈ entries, Takes e.1 e.2 := by
    by_contra wrong
    obtain ⟨_, _, _, _, e, _, _, _, _, error⟩ := refused wrong
    cases read.symm.trans error
  refine ⟨⟨?_, ?_⟩, ?_, refused⟩
  · intro h
    obtain ⟨config, read⟩ := h
    exact takes read
  · intro h
    obtain ⟨config, read, _⟩ := made h
    exact ⟨config, read⟩
  · intro config read
    obtain ⟨config', read', described⟩ := made (takes read)
    cases read.symm.trans read'
    exact ⟨described, described.html_entries once⟩

/-- The document has a viewport, and a number among its attributes. -/
def viewportText : String := "viewport = true\n[html]\nlang = \"en\"\nn = 5"

def viewportEntries : List (String × Value) :=
  [("viewport", .boolean true), ("html", .table [("lang", .string "en"), ("n", .integer 5)])]

def viewportConfig : DocumentConfig where
  html := ⟨[⟨"lang", .text "en"⟩, ⟨"n", .text "5"⟩]⟩
  viewport := some defaultViewport

theorem configuration_of_document_language :
    let lib := Library.ofDocument viewportText viewportEntries
    lib.Lawful ∧ lib.document? viewportText = some viewportEntries ∧
      (Value.table viewportEntries).Plain ∧
      (∀ e ∈ viewportEntries, e.1 = "html" → ¬ e.2.isDatetime) ∧
      load lib viewportText = .ok viewportConfig ∧
        Describes lib viewportEntries viewportConfig := by
  intro lib
  have lawful : lib.Lawful := Library.lawful_ofDocument (by decide +kernel) viewportText
  have document : lib.document? viewportText = some viewportEntries :=
    Library.document_ofDocument _ _
  have plain : (Value.table viewportEntries).Plain := by decide +kernel
  have noDate : ∀ e ∈ viewportEntries, e.1 = "html" → ¬ e.2.isDatetime := by decide +kernel
  have loaded : load lib viewportText = .ok viewportConfig :=
    eq_ok_of_toOption (by decide +kernel)
  obtain ⟨_, described, _⟩ := configuration_of_document lawful document plain noDate
  exact ⟨lawful, document, plain, noDate, loaded, (described _ loaded).1⟩

end DocumentConfig

end Hypertext
