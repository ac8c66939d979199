import Hypertext.CommandLine.Conversion
import Hypertext.Proofs.Attributes.Entries
import Hypertext.Proofs.Document.Rendering
import Hypertext.Proofs.Document.Settings
import Hypertext.Proofs.Texts.Plain

/-! # What the program prints

The program reads two texts, a configuration and a body, from a world that may change while it is
read. What it prints when both are there is said here by the texts alone: the document that the
configuration describes, and the paragraphs of the body behind it. Which command lines there are, and
what a configuration file says, is up to the libraries. -/

namespace Hypertext.CommandLine

open Escape (escapeText)

variable {σ : Type} {toml : Toml.Library} {w : World (StateM σ)} {a : Arguments} {s t : σ}

/-! ## What is read -/

/-- What is read are the bytes of the text. -/
def GivesText (read : StateM σ (Except ReadError ByteArray)) (s : σ) (text : String) (t : σ) :
    Prop :=
  ∃ bytes, read.run s = (.ok bytes, t) ∧ String.fromUTF8? bytes = some text

/-- The configuration before the options are looked at: that of the file, or an empty one. -/
def Loads (toml : Toml.Library) (w : World (StateM σ)) (a : Arguments) (s : σ)
    (loaded : DocumentConfig) (t : σ) : Prop :=
  match a.config with
  | none => loaded = {} ∧ t = s
  | some path => ∃ text, GivesText (w.file path) s text t ∧ DocumentConfig.load toml text = .ok loaded

/-- Where the body text comes from. -/
def bodySource (w : World (StateM σ)) (a : Arguments) : StateM σ (Except ReadError ByteArray) :=
  a.input.elim w.stdin w.file

theorem textOfBytes_ok_iff {read : Except ReadError ByteArray} {text : String} :
    textOfBytes read = .ok text ↔
      ∃ bytes, read = .ok bytes ∧ String.fromUTF8? bytes = some text := by
  cases read with
  | error e => simp [textOfBytes]
  | ok bytes => cases h : String.fromUTF8? bytes <;> simp [textOfBytes, h]

theorem givesText_iff {read : StateM σ (Except ReadError ByteArray)} {u : σ}
    {result : Except ReadError ByteArray} {text : String} (hr : read.run s = (result, u)) :
    GivesText read s text t ↔ textOfBytes result = .ok text ∧ u = t := by
  rw [GivesText, hr, textOfBytes_ok_iff]
  constructor
  · intro h
    obtain ⟨bytes, h, hb⟩ := h
    cases h
    exact ⟨⟨bytes, rfl, hb⟩, rfl⟩
  · intro h
    obtain ⟨⟨bytes, rfl, hb⟩, rfl⟩ := h
    exact ⟨bytes, rfl, hb⟩

theorem configOf_ok_iff {path : String} {read : Except ReadError ByteArray}
    {config : DocumentConfig} :
    configOf toml path read = .ok config ↔
      ∃ text, textOfBytes read = .ok text ∧ DocumentConfig.load toml text = .ok config := by
  cases ht : textOfBytes read with
  | error e => simp [configOf, ht]
  | ok text => cases hc : DocumentConfig.load toml text <;> simp [configOf, ht, hc]

/-! ## The configuration -/

/-- The configuration with what the options say in its place, and with their URLs behind its own. -/
def Arguments.over (a : Arguments) (loaded : DocumentConfig) : DocumentConfig where
  title := a.title.or loaded.title
  html := a.lang.elim loaded.html fun lang => loaded.html.set "lang" (.text lang)
  viewport := if a.viewport then some DocumentConfig.defaultViewport else loaded.viewport
  urls := loaded.urls ++ a.urls

theorem foldl_withUrl (urls : List String) (config : DocumentConfig) :
    urls.foldl DocumentConfig.withUrl config = { config with urls := config.urls ++ urls } := by
  induction urls generalizing config with
  | nil => simp
  | cons url urls ih =>
    rw [List.foldl_cons, ih]
    simp [DocumentConfig.withUrl]

theorem Arguments.apply_eq_over (a : Arguments) (loaded : DocumentConfig) :
    a.apply loaded = a.over loaded := by
  rw [Arguments.apply, foldl_withUrl, Arguments.over]
  cases a.title <;> cases a.lang <;> cases a.viewport <;> rfl

/-! ## Reading -/

theorem run_loadConfig_of_none (h : a.config = none) :
    (loadConfig toml w a).run s = (.ok (a.over {}), s) := by
  rw [← Arguments.apply_eq_over]
  unfold loadConfig
  rw [h]
  rfl

theorem run_loadConfig_of_some {path : String} {read : Except ReadError ByteArray}
    (h : a.config = some path) (hr : (w.file path).run s = (read, t)) :
    (loadConfig toml w a).run s = ((configOf toml path read).map a.over, t) := by
  unfold loadConfig
  rw [h]
  dsimp only
  rw [StateT.run_bind, hr]
  dsimp only [Id.run, bind]
  cases configOf toml path read with
  | error f => rfl
  | ok config =>
    show (Except.ok (a.apply config), t) = _
    rw [Arguments.apply_eq_over]
    rfl

theorem map_eq_ok_iff {ε α β : Type} {x : Except ε α} {f : α → β} {b : β} :
    x.map f = .ok b ↔ ∃ a, x = .ok a ∧ b = f a := by
  cases x with
  | error e => simp [Except.map]
  | ok a => simp [Except.map, eq_comm]

theorem loadConfig_ok_iff {config : DocumentConfig} :
    (loadConfig toml w a).run s = (.ok config, t) ↔
      ∃ loaded, Loads toml w a s loaded t ∧ config = a.over loaded := by
  unfold Loads
  cases hc : a.config with
  | none =>
    rw [run_loadConfig_of_none hc]
    constructor
    · intro h
      cases h
      exact ⟨{}, ⟨rfl, rfl⟩, rfl⟩
    · intro h
      obtain ⟨_, ⟨rfl, rfl⟩, rfl⟩ := h
      rfl
  | some path =>
    obtain ⟨result, u, hr⟩ : ∃ result u, (w.file path).run s = (result, u) := ⟨_, _, rfl⟩
    rw [run_loadConfig_of_some hc hr, Prod.mk.injEq, map_eq_ok_iff]
    simp only [configOf_ok_iff, givesText_iff hr]
    constructor
    · intro h
      obtain ⟨⟨loaded, ⟨text, ht, hl⟩, rfl⟩, rfl⟩ := h
      exact ⟨loaded, ⟨text, ⟨ht, rfl⟩, hl⟩, rfl⟩
    · intro h
      obtain ⟨loaded, ⟨text, ⟨ht, rfl⟩, hl⟩, rfl⟩ := h
      exact ⟨⟨loaded, ⟨text, ht, hl⟩, rfl⟩, rfl⟩

/-- Whatever the body text is read from, only the words for a failure differ. -/
theorem run_loadBody {result : Except ReadError ByteArray}
    (hr : (bodySource w a).run s = (result, t)) :
    ∃ words : ReadError → Failure,
      (loadBody w a).run s = ((textOfBytes result).mapError words, t) := by
  unfold bodySource at hr
  unfold loadBody
  cases hi : a.input with
  | none =>
    rw [hi] at hr
    exact ⟨.inputUnreadable, by rw [StateT.run_bind, show w.stdin.run s = _ from hr]; rfl⟩
  | some path =>
    rw [hi] at hr
    exact ⟨.bodyUnreadable path, by
      rw [StateT.run_bind, show (w.file path).run s = _ from hr]; rfl⟩

theorem loadBody_ok_iff {body : String} :
    (loadBody w a).run s = (.ok body, t) ↔ GivesText (bodySource w a) s body t := by
  obtain ⟨result, u, hr⟩ : ∃ result u, (bodySource w a).run s = (result, u) := ⟨_, _, rfl⟩
  obtain ⟨words, hrun⟩ := run_loadBody hr
  rw [hrun, givesText_iff hr, Prod.mk.injEq]
  cases textOfBytes result <;> simp [Except.mapError]

/-! ## The page -/

/-- The paragraphs of the text as elements. -/
def paragraphsHtml (body : String) : String :=
  String.join ((paragraphs body).map fun paragraph => "<p>" ++ escapeText paragraph)

/-- A paragraph is an element that is left without its end tag. -/
theorem reads_paragraph {b : Builder} {html : String} (h : b.Reads html) (text : String) :
    (b.element "p" text).Reads (html ++ ("<p>" ++ escapeText text)) := by
  have name : htmlName "p" = "p" := by decide +kernel
  have optional : ElementKind.ofName "p" = .optionalEnd := by decide +kernel
  have opened := (h.tag "p").pushText text
  rw [name, optional, String.empty_append] at opened
  have read := (opened.reads (by rw [optional]; rfl)).close
  exact read

/-- Whatever element the document has left pending, the body and its paragraphs come behind. -/
theorem reads_addBody {b : Builder} {html : String} (h : b.Reads html) (body : String) :
    (addBody b body).Reads (html ++ "<body>" ++ paragraphsHtml body) := by
  have name : htmlName "body" = "body" := by decide +kernel
  have opened := h.tag "body"
  rw [name] at opened
  have begun : (b.tag "body").Reads (html ++ "<body>") := opened.reads (by decide +kernel)
  -- A paragraph reads as finished once it is there, so the next one finds what the first one found.
  have added (texts : List String) {c : Builder} {html : String} (hc : c.Reads html) :
      (texts.foldl (fun b text => b.element "p" text) c).Reads
        (html ++ String.join (texts.map fun text => "<p>" ++ escapeText text)) := by
    induction texts generalizing c html with
    | nil => rwa [List.map_nil, String.join_nil, String.append_empty]
    | cons text texts ih =>
      rw [List.map_cons, String.join_cons, ← String.append_assoc]
      exact ih (reads_paragraph hc text)
  exact added (paragraphs body) begun

/-- The page is the document with the paragraphs behind. -/
theorem page_ok_iff {config : DocumentConfig} {body html : String} :
    page config body = .ok html ↔
      ∃ doc, document config = .ok doc ∧
        html = (doc.value.render {}).value ++ "<body>" ++ paragraphsHtml body := by
  unfold page
  cases hd : document config with
  | error e => simp
  | ok doc =>
    have read := (document_reads hd).1
    simp [read.render, (reads_addBody read body).render, eq_comm]

/-! ## Tags -/

theorem count_open_escapeText (text : String) : (escapeText text).toList.count '<' = 0 := by
  rw [List.count_eq_zero]
  intro h
  exact (harmless_escapeText text _ h).1 rfl

/-- Each paragraph has one tag, whatever its text. -/
theorem count_open_paragraphsHtml (body : String) :
    (paragraphsHtml body).toList.count '<' = (paragraphs body).length := by
  unfold paragraphsHtml
  induction paragraphs body with
  | nil => rfl
  | cons text texts ih =>
    rw [List.map_cons, String.join_cons, String.toList_append, List.count_append, ih,
      String.toList_append, List.count_append, count_open_escapeText, List.length_cons]
    have tag : "<p>".toList.count '<' = 1 := by decide
    omega

/-! ## The program -/

theorem code_ofFailure_ne_zero (f : Failure) : (Exit.ofFailure f).code ≠ 0 :=
  Nat.one_ne_zero

theorem run_convert_of_config_error {f : Failure} {u : σ}
    (hc : (loadConfig toml w a).run s = (.error f, u)) : (convert toml w a).run s = (.ofFailure f, u) := by
  rw [convert, StateT.run_bind, hc]
  rfl

theorem run_convert_of_body_error {config : DocumentConfig} {f : Failure} {u v : σ}
    (hc : (loadConfig toml w a).run s = (.ok config, u)) (hb : (loadBody w a).run u = (.error f, v)) :
    (convert toml w a).run s = (.ofFailure f, v) := by
  rw [convert, StateT.run_bind, hc]
  show (loadBody w a >>= _).run u = _
  rw [StateT.run_bind, hb]
  rfl

theorem run_convert_of_ok {config : DocumentConfig} {body : String} {u v : σ}
    (hc : (loadConfig toml w a).run s = (.ok config, u)) (hb : (loadBody w a).run u = (.ok body, v)) :
    (convert toml w a).run s =
      (match page config body with
        | .error e => .ofFailure (.document e)
        | .ok html => { code := 0, output := html ++ "\n" }, v) := by
  rw [convert, StateT.run_bind, hc]
  show (loadBody w a >>= _).run u = _
  rw [StateT.run_bind, hb]
  show StateT.run (match page config body with
    | .error e => pure (Exit.ofFailure (.document e))
    | .ok html => pure { code := 0, output := html ++ "\n" }) v = _
  cases page config body <;> rfl

/-- The program prints a page just if everything can be read and the page can be made. -/
theorem run_convert_ok_iff {exit : Exit} :
    (convert toml w a).run s = (exit, t) ∧ exit.code = 0 ↔
      ∃ config u body html, (loadConfig toml w a).run s = (.ok config, u) ∧
        (loadBody w a).run u = (.ok body, t) ∧ page config body = .ok html ∧
        exit = { code := 0, output := html ++ "\n" } := by
  constructor
  · intro h
    obtain ⟨hrun, hcode⟩ := h
    -- Each of the three things that can fail brings its own code, and none of them is 0.
    obtain ⟨loaded, u, hc⟩ : ∃ loaded u, (loadConfig toml w a).run s = (loaded, u) := ⟨_, _, rfl⟩
    obtain ⟨read, v, hb⟩ : ∃ read v, (loadBody w a).run u = (read, v) := ⟨_, _, rfl⟩
    cases loaded with
    | error f =>
      rw [run_convert_of_config_error hc] at hrun
      cases hrun
      exact absurd hcode (code_ofFailure_ne_zero f)
    | ok config =>
      cases read with
      | error f =>
        rw [run_convert_of_body_error hc hb] at hrun
        cases hrun
        exact absurd hcode (code_ofFailure_ne_zero f)
      | ok body =>
        rw [run_convert_of_ok hc hb] at hrun
        cases hp : page config body with
        | error e =>
          rw [hp] at hrun
          cases hrun
          exact absurd hcode (code_ofFailure_ne_zero _)
        | ok html =>
          rw [hp] at hrun
          cases hrun
          exact ⟨config, u, body, html, hc, hb, hp, rfl⟩
  · intro h
    obtain ⟨config, u, body, html, hc, hb, hp, rfl⟩ := h
    rw [run_convert_of_ok hc hb, hp]
    exact ⟨rfl, rfl⟩

/-- **The program prints the document and its paragraphs.** It ends well just if the configuration
and the body text can be read and the document of the configuration can be made, with what the
options say in its place. Then it prints the rendering of that document, the body and its
paragraphs in order, each escaped, and a line feed. So the body text brings no tags: there is one
for each paragraph. An option for the language replaces the first entry of that name alone. -/
theorem output_is_document (lib : Libraries) (w : World (StateM σ)) {arguments : List String}
    {a : Arguments} (ha : lib.arguments arguments = .ok a) (s t : σ) (exit : Exit) :
    ((execute lib w arguments).run s = (exit, t) ∧ exit.code = 0 ↔
      ∃ loaded u body doc, Loads lib.toml w a s loaded u ∧ GivesText (bodySource w a) u body t ∧
        document (a.over loaded) = .ok doc ∧
        exit =
          { code := 0
            output :=
              (doc.value.render {}).value ++ "<body>" ++ paragraphsHtml body ++ "\n" }) ∧
    (∀ body, (paragraphsHtml body ++ "\n").toList.count '<' = (paragraphs body).length) ∧
    ∀ loaded lang, a.lang = some lang →
      (a.over loaded).html.named "lang" =
        ⟨"lang", .text lang⟩ :: (loaded.html.named "lang").tail ∧
      ∀ name, name ≠ "lang" → (a.over loaded).html.named name = loaded.html.named name := by
  refine ⟨?_, ?_, ?_⟩
  · have converts : execute lib w arguments = convert lib.toml w a := by
      rw [execute, ha]
    rw [converts, run_convert_ok_iff]
    simp only [loadConfig_ok_iff, loadBody_ok_iff, page_ok_iff]
    constructor
    · intro h
      obtain ⟨_, u, body, _, ⟨loaded, hl, rfl⟩, hb, ⟨doc, hd, rfl⟩, rfl⟩ := h
      exact ⟨loaded, u, body, doc, hl, hb, hd, rfl⟩
    · intro h
      obtain ⟨loaded, u, body, doc, hl, hb, hd, rfl⟩ := h
      exact ⟨_, u, body, _, ⟨loaded, hl, rfl⟩, hb, ⟨doc, hd, rfl⟩, rfl⟩
  · intro body
    rw [String.toList_append, List.count_append, count_open_paragraphsHtml]
    have feed : "\n".toList.count '<' = 0 := by decide
    omega
  · intro loaded lang hlang
    have name : (Attribute.mk "lang" (.text lang)).name = "lang" := by
      show htmlName "lang" = "lang"
      decide +kernel
    have set : (a.over loaded).html =
        ⟨Attributes.setEntry ⟨"lang", .text lang⟩ loaded.html.entries⟩ := by
      rw [Arguments.over, hlang]
      rfl
    rw [set]
    refine ⟨?_, ?_⟩
    · have first := Attributes.named_setEntry_self ⟨"lang", .text lang⟩ loaded.html.entries
      rwa [name] at first
    · intro other hother
      exact Attributes.named_setEntry_of_ne (by rwa [name]) loaded.html.entries

/-- A world of one file and a text to read, which nothing changes. -/
def smallWorld (path config body : String) : World (StateM Unit) where
  file name := pure (if name = path then .ok config.toUTF8 else .error .notFound)
  input := pure (.ok body.toUTF8)

/-- Libraries that know one command line and one document. -/
def Libraries.ofTexts (arguments : List String) (a : Arguments) (text : String)
    (entries : List (String × Toml.Value)) : Libraries where
  arguments given := if given = arguments then .ok a else .error { code := 2 }
  toml := .ofDocument text entries

theorem Libraries.arguments_ofTexts (arguments : List String) (a : Arguments) (text : String)
    (entries : List (String × Toml.Value)) :
    (ofTexts arguments a text entries).arguments arguments = .ok a :=
  if_pos rfl

def fileText : String := "urls = ['/a.js']\nhtml.lang = 'en'"

def fileConfig : DocumentConfig where
  html := ⟨[⟨"lang", .text "en"⟩]⟩
  urls := ["/a.js"]

/-- Options that go with the file: another language, and a URL more. -/
def fileOptions : List String :=
  ["-c", "c.toml", "--lang=fi", "-ub.css", "--viewport"]

def fileArguments : Arguments where
  config := some "c.toml"
  lang := some "fi"
  urls := ["b.css"]
  viewport := true

def fileLibraries : Libraries :=
  .ofTexts fileOptions fileArguments fileText
    [("urls", .array [.string "/a.js"]), ("html", .table [("lang", .string "en")])]

theorem output_is_document_file :
    fileLibraries.arguments fileOptions = .ok fileArguments ∧
    (execute fileLibraries (smallWorld "c.toml" fileText "1 < 2\n\nso\nbe it") fileOptions).run () =
      ({ code := 0
         output :=
          "<!DOCTYPE html><html lang=fi>" ++
            "<meta name=viewport content=\"width=device-width,initial-scale=1\">" ++
            "<script src=\"/a.js\" defer></script><link href=\"b.css\" rel=stylesheet>" ++
            "<body><p>1 &lt; 2<p>so be it\n" }, ()) := by
  have parsed : fileLibraries.arguments fileOptions = .ok fileArguments :=
    Libraries.arguments_ofTexts _ _ _ _
  have file : (DocumentConfig.load fileLibraries.toml fileText).toOption = some fileConfig := by
    decide +kernel
  have known : ∀ url ∈ (fileArguments.over fileConfig).urls,
      ∃ r, Resource.classify url = .ok r := by
    intro url hu
    rcases List.mem_pair.mp hu with rfl | rfl
    · exact ⟨.script, by decide +kernel⟩
    · exact ⟨.link ⟨[⟨"rel", .text "stylesheet"⟩, ⟨"type", .absent⟩]⟩, by decide +kernel⟩
  obtain ⟨doc, made⟩ := (document_ok_iff _).mpr known
  have prints := output_is_document fileLibraries
    (smallWorld "c.toml" fileText "1 < 2\n\nso\nbe it") parsed () ()
  refine ⟨parsed, ((prints _).1.mpr ⟨fileConfig, (), "1 < 2\n\nso\nbe it", doc, ?_, ?_, made,
    ?_⟩).1⟩
  · exact ⟨fileText, ⟨_, rfl, by decide +kernel⟩, eq_ok_of_toOption file⟩
  · exact ⟨_, rfl, by decide +kernel⟩
  · rw [(document_reads made).1.render]
    exact congrArg (Exit.mk 0 · "") (by decide +kernel)

end Hypertext.CommandLine
