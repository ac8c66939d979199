import Hypertext.Proofs.Document.Written
import Hypertext.Proofs.Lives.Kept

/-! # What a new document renders

A new document is written tag by tag, and each tag closes the element before it. What comes out is
its parts in a row, with nothing between them, and whatever is done to the document later comes
behind. -/

namespace Hypertext

open Builder (Event elementHtml)
open Escape (escapeAttribute escapeText)

/-! ## The parts as markup -/

/-- The element that links a resource, with its end tag if it has one. -/
def Resource.html (url : String) : Resource → String
  | .link attributes => "<link href=" ++ escapeAttribute url ++ attributes.html ++ ">"
  | .script => "<script src=" ++ escapeAttribute url ++ " defer></script>"
  | .scriptModule => "<script src=" ++ escapeAttribute url ++ " type=module></script>"

/-- The element that links the URL, if it is known how to link it. -/
def linkHtml (url : String) : String :=
  match Resource.classify url with
  | .ok r => r.html url
  | .error _ => ""

def rootHtml (html : Attributes) : String :=
  if html.isEmpty then "" else "<html" ++ html.html ++ ">"

def titleHtml (title : Option String) : String :=
  title.elim "" fun title =>
    "<meta charset=\"utf-8\"><title>" ++ escapeText title ++ "</title>"

def viewportHtml (viewport : Option String) : String :=
  viewport.elim "" fun viewport =>
    "<meta name=viewport content=" ++ escapeAttribute viewport ++ ">"

/-- The document without anything that is added later. -/
def documentHtml (config : DocumentConfig) : String :=
  "<!DOCTYPE html>" ++ rootHtml config.html ++ titleHtml config.title ++
    viewportHtml config.viewport ++ String.join (config.urls.map linkHtml)

namespace Resource

/-- A link tells its relation, and its type if it has one. -/
theorem html_linkType {t : LinkType} (ht : t ∈ linkTypes) :
    t.attributes.html = " rel=" ++ t.rel ++ t.mime.elim "" fun mime =>
      " type=" ++ escapeAttribute mime := by
  have all : ∀ t ∈ linkTypes, t.attributes.html =
      " rel=" ++ t.rel ++ t.mime.elim "" fun mime => " type=" ++ escapeAttribute mime := by
    decide +kernel
  exact all t ht

theorem exists_linkType {url : String} {attributes : Attributes}
    (h : classify url = .ok (.link attributes)) :
    ∃ t ∈ linkTypes, attributes = t.attributes := by
  have found {key : List Char} (hk : linkFor? key = some attributes) :
      ∃ t ∈ linkTypes, attributes = t.attributes := by
    obtain ⟨t, ht, rfl⟩ := Option.map_eq_some_iff.mp hk
    exact ⟨t, List.mem_of_find?_eq_some ht, rfl⟩
  unfold classify at h
  dsimp only at h
  split at h
  · rename_i hl
    cases h
    rcases Option.or_eq_some_iff.mp hl with hk | ⟨_, hk⟩
    · exact found hk
    · exact found hk
  · split at h
    · cases h
    · split at h <;> cases h

theorem eq_unknownResource {url : String} {e : BuildError} (h : classify url = .error e) :
    e = .unknownResource url := by
  unfold classify at h
  dsimp only at h
  split at h
  · cases h
  · split at h
    · cases h
    · split at h
      · cases h
      · cases h
        rfl

end Resource

/-! ## The parts as they are written -/

theorem Attributes.html_single {identifier : String} (h : htmlName identifier = identifier)
    (value : String) :
    (Attributes.mk [⟨identifier, .text value⟩]).html =
      " " ++ identifier ++ "=" ++ escapeAttribute value := by
  simp [html, Attribute.html, Attribute.name, h, String.join]

namespace Builder.Reads

open ElementKind (ofName)

variable {b : Builder} {html : String}

/-- An element that needs no end tag begins. -/
theorem tagWith (h : b.Reads html) (identifier : String) (hn : htmlName identifier = identifier)
    (given : Attributes) :
    ∃ c, (b.tag identifier).giveAttributes given = ⟨c, []⟩ ∧
      c.Open html identifier given.html "" := by
  have opened := h.tag identifier
  rw [hn] at opened
  obtain ⟨c, hc, given⟩ := opened.giveAttributes given
  rw [String.empty_append] at given
  exact ⟨c, hc, given⟩

theorem withRoot (h : b.Reads html) (attributes : Attributes) :
    ∃ c, b.withRoot attributes = ⟨c, []⟩ ∧ c.Reads (html ++ rootHtml attributes) := by
  unfold Builder.withRoot rootHtml
  split
  · exact ⟨b, rfl, by rwa [String.append_empty]⟩
  · obtain ⟨c, hc, opened⟩ := h.tagWith "html" (by decide +kernel) attributes
    refine ⟨c, hc, ?_⟩
    have read := opened.reads (by decide +kernel)
    rwa [elementHtml, String.append_empty] at read

theorem element_title (h : b.Reads html) (title : String) :
    (b.element "title" title).Reads (html ++ ("<title>" ++ escapeText title ++ "</title>")) := by
  have name : htmlName "title" = "title" := by decide +kernel
  have normal : ofName "title" = .normal := by decide +kernel
  have opened := (h.tag "title").pushText title
  rw [name, normal, String.empty_append] at opened
  have read := opened.close (by rw [normal]; rfl)
  have written : elementHtml "title" "" (escapeText title) ++ "</" ++ "title" ++ ">" =
      "<title>" ++ escapeText title ++ "</title>" := by
    apply String.toList_inj.mp
    simp [elementHtml]
  show ((b.tag "title").pushText title).close.Reads _
  rw [← written]
  exact read

theorem withTitle (h : b.Reads html) (title : Option String) :
    ∃ c, b.withTitle title = ⟨c, []⟩ ∧ c.Reads (html ++ titleHtml title) := by
  cases title with
  | none => exact ⟨b, rfl, by rwa [titleHtml, Option.elim_none, String.append_empty]⟩
  | some title =>
    obtain ⟨c, hc, opened⟩ := h.tagWith "meta" (by decide +kernel)
      ⟨[⟨"charset", .text "utf-8"⟩]⟩
    have charset : elementHtml "meta" (Attributes.mk [⟨"charset", .text "utf-8"⟩]).html "" =
        "<meta charset=\"utf-8\">" := by
      decide +kernel
    have read := opened.reads (by decide +kernel)
    rw [charset] at read
    refine ⟨c.element "title" title, ?_, ?_⟩
    · rw [Builder.withTitle, giveAttribute, hc, Logged.silent_bind]
      rfl
    · have written : html ++ titleHtml (some title) =
          html ++ "<meta charset=\"utf-8\">" ++
            ("<title>" ++ escapeText title ++ "</title>") := by
        apply String.toList_inj.mp
        simp [titleHtml]
      rw [written]
      exact read.element_title title

theorem withViewport (h : b.Reads html) (viewport : Option String) :
    ∃ c, b.withViewport viewport = ⟨c, []⟩ ∧ c.Reads (html ++ viewportHtml viewport) := by
  cases viewport with
  | none => exact ⟨b, rfl, by rwa [viewportHtml, Option.elim_none, String.append_empty]⟩
  | some viewport =>
    obtain ⟨c, hc, named⟩ := h.tagWith "meta" (by decide +kernel)
      ⟨[⟨"name", .text "viewport"⟩]⟩
    obtain ⟨d, hd, opened⟩ := named.giveAttributes ⟨[⟨"content", .text viewport⟩]⟩
    have name : (Attributes.mk [⟨"name", .text "viewport"⟩]).html = " name=viewport" := by
      decide +kernel
    refine ⟨d, ?_, ?_⟩
    · rw [Builder.withViewport, giveAttribute, hc, Logged.silent_bind]
      exact hd
    · have written : viewportHtml (some viewport) =
          elementHtml "meta" (" name=viewport" ++ (" " ++ "content" ++ "=" ++
            escapeAttribute viewport)) "" := by
        apply String.toList_inj.mp
        simp [viewportHtml, elementHtml]
      rw [name, Attributes.html_single (by decide +kernel)] at opened
      rw [written]
      exact opened.reads (by decide +kernel)

/-- A script has its URL and what tells how it is run, and it has its end tag. -/
theorem script (h : b.Reads html) (url : String) (more : Attribute) {shown : String}
    (hm : (Attributes.mk [more]).html = shown) :
    ∃ c, (do
        let b ← (b.tag "script").giveAttribute "src" (.text url)
        Builder.close <$> b.giveAttributes ⟨[more]⟩) = ⟨c, []⟩ ∧
      c.Reads (html ++ ("<script src=" ++ escapeAttribute url ++ shown ++ "></script>")) := by
  obtain ⟨c, hc, sourced⟩ := h.tagWith "script" (by decide +kernel)
    ⟨[⟨"src", .text url⟩]⟩
  obtain ⟨d, hd, opened⟩ := sourced.giveAttributes ⟨[more]⟩
  refine ⟨d.close, ?_, ?_⟩
  · rw [giveAttribute, hc, Logged.silent_bind, hd, Logged.silent_map]
  · have written : "<script src=" ++ escapeAttribute url ++ shown ++ "></script>" =
        elementHtml "script" (" " ++ "src" ++ "=" ++ escapeAttribute url ++ shown) "" ++
          "</" ++ "script" ++ ">" := by
      apply String.toList_inj.mp
      simp [elementHtml]
    rw [Attributes.html_single (by decide +kernel), hm] at opened
    rw [written]
    exact opened.close (by decide +kernel)

theorem link (h : b.Reads html) (url : String) (r : Resource) :
    ∃ c, b.link url r = ⟨c, []⟩ ∧ c.Reads (html ++ r.html url) := by
  cases r with
  | link attributes =>
    obtain ⟨c, hc, referring⟩ := h.tagWith "link" (by decide +kernel)
      ⟨[⟨"href", .text url⟩]⟩
    obtain ⟨d, hd, opened⟩ := referring.giveAttributes attributes
    refine ⟨d, ?_, ?_⟩
    · rw [Builder.link, giveAttribute, hc, Logged.silent_bind]
      exact hd
    · have written : (Resource.link attributes).html url =
          elementHtml "link" (" " ++ "href" ++ "=" ++ escapeAttribute url ++ attributes.html)
            "" := by
        apply String.toList_inj.mp
        simp [Resource.html, elementHtml]
      rw [Attributes.html_single (by decide +kernel)] at opened
      rw [written]
      exact opened.reads (by decide +kernel)
  | script =>
    have defer : (Attributes.mk [⟨"defer", .flag true⟩]).html = " defer" := by decide +kernel
    obtain ⟨c, hc, read⟩ := h.script url ⟨"defer", .flag true⟩ defer
    refine ⟨c, hc, ?_⟩
    have written : Resource.script.html url =
        "<script src=" ++ escapeAttribute url ++ " defer" ++ "></script>" := by
      apply String.toList_inj.mp
      simp [Resource.html]
    rwa [written]
  | scriptModule =>
    have type : (Attributes.mk [⟨"type", .text "module"⟩]).html = " type=module" := by
      decide +kernel
    obtain ⟨c, hc, read⟩ := h.script url ⟨"type", .text "module"⟩ type
    refine ⟨c, hc, ?_⟩
    have written : Resource.scriptModule.html url =
        "<script src=" ++ escapeAttribute url ++ " type=module" ++ "></script>" := by
      apply String.toList_inj.mp
      simp [Resource.html]
    rwa [written]

theorem head (h : b.Reads html) (config : DocumentConfig) :
    ∃ c, b.head config = ⟨c, []⟩ ∧ c.Reads (html ++ rootHtml config.html ++
      titleHtml config.title ++ viewportHtml config.viewport) := by
  obtain ⟨c, hc, root⟩ := h.withRoot config.html
  obtain ⟨d, hd, title⟩ := root.withTitle config.title
  obtain ⟨e, he, viewport⟩ := title.withViewport config.viewport
  refine ⟨e, ?_, viewport⟩
  rw [head_eq, hc, Logged.silent_bind, hd, Logged.silent_bind]
  exact he

/-- The elements of the resources come one behind the other. -/
theorem links (h : b.Reads html) (resources : List (String × Resource)) :
    ∃ c, resources.foldlM (fun (b : Builder) (url, r) => b.link url r) b = ⟨c, []⟩ ∧
      c.Reads (html ++ String.join (resources.map fun (url, r) => r.html url)) := by
  induction resources generalizing b html with
  | nil => exact ⟨b, rfl, by rwa [List.map_nil, String.join_nil, String.append_empty]⟩
  | cons r rs ih =>
    obtain ⟨url, resource⟩ := r
    obtain ⟨c, hc, first⟩ := h.link url resource
    obtain ⟨d, hd, rest⟩ := ih first
    refine ⟨d, ?_, ?_⟩
    · rw [List.foldlM_cons]
      dsimp only
      rw [hc, Logged.silent_bind]
      exact hd
    · rw [List.map_cons, String.join_cons, ← String.append_assoc]
      exact rest

end Builder.Reads

theorem map_html_of_classify {urls : List String} {resources : List (String × Resource)}
    (h : List.Forall₂ (fun url r => (url, ·) <$> Resource.classify url = .ok r) urls resources) :
    resources.map (fun (url, r) => r.html url) = urls.map linkHtml := by
  induction h with
  | nil => rfl
  | @cons url r _ _ hr _ ih =>
    rw [List.map_cons, List.map_cons, ih]
    cases hc : Resource.classify url with
    | error e => rw [hc] at hr; cases hr
    | ok resource =>
      rw [hc] at hr
      cases hr
      rw [linkHtml, hc]

/-- A document that is made reads as its parts, and only the number of its resources is reported. -/
theorem document_reads {config : DocumentConfig} {doc : Logged Builder}
    (h : document config = .ok doc) :
    doc.value.Reads (documentHtml config) ∧ doc.log = [.seeded config.urls.length] := by
  unfold document at h
  cases hm : config.urls.mapM fun url => (url, ·) <$> Resource.classify url with
  | error e => rw [hm] at h; cases h
  | ok resources =>
    rw [hm] at h
    cases h
    have start : (({ name := "Document Builder" } : Builder).pushPiece doctype).Reads
        "<!DOCTYPE html>" :=
      ⟨⟨[doctype], rfl, by decide +kernel⟩, rfl, rfl⟩
    obtain ⟨c, hc, head⟩ := start.head config
    obtain ⟨d, hd, read⟩ := head.links resources
    rw [map_html_of_classify (forall₂_of_mapM_eq_ok hm)] at read
    have made : (do
        let b ← (({ name := "Document Builder" } : Builder).pushPiece doctype).head config
        let b ← resources.foldlM (fun (b : Builder) (url, r) => b.link url r) b
        ⟨b, [.seeded config.urls.length]⟩ : Logged Builder) =
          ⟨d, [.seeded config.urls.length]⟩ := by
      rw [hc, Logged.silent_bind, hd, Logged.silent_bind]
    refine ⟨?_, congrArg Logged.log made⟩
    rw [congrArg Logged.value made]
    exact read

/-! ## The document -/

theorem exists_linked_iff (url : String) :
    (∃ r, (url, ·) <$> Resource.classify url = .ok r) ↔ ∃ r, Resource.classify url = .ok r := by
  cases Resource.classify url <;> simp [Functor.map, Except.map]

theorem linked_error_iff (url : String) (e : BuildError) :
    (url, ·) <$> Resource.classify url = .error e ↔
      (∀ r, Resource.classify url ≠ .ok r) ∧ e = .unknownResource url := by
  cases hc : Resource.classify url with
  | ok r => simp [Functor.map, Except.map]
  | error e' =>
    have unknown := Resource.eq_unknownResource hc
    subst unknown
    simp [Functor.map, Except.map, eq_comm]

theorem document_ok_iff (config : DocumentConfig) :
    (∃ doc, document config = .ok doc) ↔
      ∀ url ∈ config.urls, ∃ r, Resource.classify url = .ok r := by
  have made : (∃ doc, document config = .ok doc) ↔
      ∃ rs, config.urls.mapM (fun url => (url, ·) <$> Resource.classify url) = .ok rs := by
    unfold document
    cases config.urls.mapM fun url => (url, ·) <$> Resource.classify url <;>
      simp [Bind.bind, Except.bind, Pure.pure, Except.pure]
  rw [made, exists_mapM_eq_ok_iff]
  simp only [exists_linked_iff]

/-- The first URL that cannot be linked decides. -/
theorem document_error_iff (config : DocumentConfig) (e : BuildError) :
    document config = .error e ↔
      ∃ before url after, config.urls = before ++ url :: after ∧
        (∀ u ∈ before, ∃ r, Resource.classify u = .ok r) ∧
        (∀ r, Resource.classify url ≠ .ok r) ∧ e = .unknownResource url := by
  have made : document config = .error e ↔
      config.urls.mapM (fun url => (url, ·) <$> Resource.classify url) = .error e := by
    unfold document
    cases config.urls.mapM fun url => (url, ·) <$> Resource.classify url <;>
      simp [Bind.bind, Except.bind, Pure.pure, Except.pure]
  rw [made, mapM_eq_error_iff]
  simp only [exists_linked_iff, linked_error_iff]

namespace Builder.Reads

variable {b : Builder} {html : String}

/-- A tag comes behind the markup, with its end tag if it needs one. -/
theorem render_tag (h : b.Reads html) (identifier : String) (st : Store) :
    (b.tag identifier).render st =
      ⟨html ++ ("<" ++ htmlName identifier ++ ">" ++
        if (ElementKind.ofName (htmlName identifier)).requiresEndTag then
          "</" ++ htmlName identifier ++ ">" else ""), []⟩ := by
  have opened := h.tag identifier
  have bare : elementHtml (htmlName identifier) "" "" = "<" ++ htmlName identifier ++ ">" := by
    rw [elementHtml, String.append_empty, String.append_empty]
  cases hk : (ElementKind.ofName (htmlName identifier)).requiresEndTag with
  | false =>
    have read := opened.reads hk
    rw [read.render, bare]
    simp
  | true =>
    -- Rendering adds the end tag that closing the builder would write.
    have read := opened.close hk
    rw [← render_congr (ended_close (b.tag identifier)), read.render, bare, if_pos rfl]
    simp only [String.append_assoc]

/-- Whatever is done to the builder from the next tag on comes behind the markup. -/
theorem render_later (h : b.Reads html) (identifier : String) {events : List Event}
    (hr : ∀ e ∈ events, ∀ st, e ≠ .call .reset st) (st : Store) :
    ∃ rest log, ((b.tag identifier).afterAll events).render st = ⟨html ++ rest, log⟩ := by
  obtain ⟨ps, fragments, rendered⟩ := h.pieces
  have kept : (b.tag identifier).Keeps (ps.map .piece) :=
    .tag (by rw [fragments]) identifier
  obtain ⟨rest, log, hrender⟩ := (kept.afterAll hr).render st
  exact ⟨rest, log, by rw [hrender, rendered]⟩

end Builder.Reads

/-- **A document is its parts in a row.** It is made just if every URL is one that is known how to
link; otherwise the first URL that is not is refused. What is made renders as the doctype, the root
element if it has attributes, the title, the viewport and the elements of the URLs, in this order,
with nothing between them. No end tag is missing, so what is added from the next tag on comes
behind. -/
theorem document_renders (config : DocumentConfig) :
    ((∃ doc, document config = .ok doc) ↔
      ∀ url ∈ config.urls, ∃ r, Resource.classify url = .ok r) ∧
    (∀ e, document config = .error e ↔
      ∃ before url after, config.urls = before ++ url :: after ∧
        (∀ u ∈ before, ∃ r, Resource.classify u = .ok r) ∧
        (∀ r, Resource.classify url ≠ .ok r) ∧ e = .unknownResource url) ∧
    (∀ url attributes, Resource.classify url = .ok (.link attributes) →
      ∃ t ∈ Resource.linkTypes, attributes.html = " rel=" ++ t.rel ++ t.mime.elim "" fun mime =>
        " type=" ++ escapeAttribute mime) ∧
    ∀ doc, document config = .ok doc →
      (∀ st, doc.value.render st = ⟨documentHtml config, []⟩) ∧
      doc.value.stack.owed = [] ∧ doc.value.depth = 0 ∧
      doc.log = [.seeded config.urls.length] ∧
      ∀ identifier,
        (∀ st, (doc.value.tag identifier).render st =
          ⟨documentHtml config ++ ("<" ++ htmlName identifier ++ ">" ++
            if (ElementKind.ofName (htmlName identifier)).requiresEndTag then
              "</" ++ htmlName identifier ++ ">" else ""), []⟩) ∧
        ∀ events, (∀ e ∈ events, ∀ st, e ≠ Event.call .reset st) → ∀ st, ∃ rest log,
          ((doc.value.tag identifier).afterAll events).render st =
            ⟨documentHtml config ++ rest, log⟩ := by
  refine ⟨document_ok_iff config, document_error_iff config, ?_, ?_⟩
  · intro url attributes h
    obtain ⟨t, ht, rfl⟩ := Resource.exists_linkType h
    exact ⟨t, ht, Resource.html_linkType ht⟩
  · intro doc h
    obtain ⟨read, log⟩ := document_reads h
    refine ⟨read.render, read.owed, ?_, log, ?_⟩
    · show doc.value.stack.scopes.length = 0
      rw [read.scopes]
      rfl
    · intro identifier
      exact ⟨read.render_tag identifier, fun _ => read.render_later identifier⟩

/-- A configuration with a script and a style sheet. -/
def linkingConfig : DocumentConfig where
  title := some "Q&A"
  html := ⟨[⟨"lang", .text "en"⟩]⟩
  viewport := some DocumentConfig.defaultViewport
  urls := ["/app.js", "a.css"]

theorem document_renders_linking :
    ∃ doc, document linkingConfig = .ok doc ∧ doc.value.stack.owed = [] ∧
      doc.value.render {} =
        ⟨"<!DOCTYPE html><html lang=en><meta charset=\"utf-8\"><title>Q&amp;A</title>" ++
          "<meta name=viewport content=\"width=device-width,initial-scale=1\">" ++
          "<script src=\"/app.js\" defer></script><link href=\"a.css\" rel=stylesheet>", []⟩ := by
  have known : ∀ url ∈ linkingConfig.urls, ∃ r, Resource.classify url = .ok r := by
    intro url hu
    rcases List.mem_pair.mp hu with rfl | rfl
    · exact ⟨.script, by decide +kernel⟩
    · exact ⟨.link ⟨[⟨"rel", .text "stylesheet"⟩, ⟨"type", .absent⟩]⟩, by decide +kernel⟩
  obtain ⟨made, _, _, renders⟩ := document_renders linkingConfig
  obtain ⟨doc, hd⟩ := made.mpr known
  obtain ⟨render, owed, _⟩ := renders doc hd
  refine ⟨doc, hd, owed, ?_⟩
  rw [render {}]
  exact Logged.ext (by decide +kernel) rfl

end Hypertext
