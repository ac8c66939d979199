import Hypertext.Proofs.Texts.Calls

/-! # Documents without texts

Two configurations that differ in nothing but texts make documents that differ in nothing but texts.
Of a URL, only the way in which it is linked is more than text. -/

namespace Hypertext

/-- The settings are the same but for texts; `R` says it of the values of attributes. -/
inductive Setting.Alike {α : Type} (R : α → α → Prop) : Setting α → Setting α → Prop
  | title (t t' : String) : Alike R (.title t) (.title t')
  | lang (l l' : String) : Alike R (.lang l) (.lang l')
  | htmlAttribute (identifier : String) {v v' : α} (h : R v v') :
      Alike R (.htmlAttribute identifier v) (.htmlAttribute identifier v')
  | viewport (enabled : Bool) : Alike R (.viewport enabled) (.viewport enabled)
  | viewportContent (v v' : String) : Alike R (.viewportContent v) (.viewportContent v')
  | url {u u' : String}
      (h : (Resource.classify u).toOption = (Resource.classify u').toOption) :
      Alike R (.url u) (.url u')

/-- The configurations are the same but for texts. -/
structure DocumentConfig.Alike (config config' : DocumentConfig) : Prop where
  title : config.title.isSome = config'.title.isSome
  html : config.html.erase = config'.html.erase
  viewport : config.viewport.isSome = config'.viewport.isSome
  urls : List.Forall₂
    (fun u u' => (Resource.classify u).toOption = (Resource.classify u').toOption)
    config.urls config'.urls

/-- The values are the same but for texts. -/
def AttributeValue.Alike (v v' : AttributeValue) : Prop :=
  v.erase = v'.erase

/-! ## Settings -/

theorem Attributes.erase_setEntry (a : Attribute) (entries : List Attribute) :
    (setEntry a entries).map Attribute.erase =
      setEntry a.erase (entries.map Attribute.erase) := by
  induction entries with
  | nil => rfl
  | cons e es ih =>
    have name (a : Attribute) : a.erase.name = a.name := rfl
    unfold setEntry
    simp only [List.map_cons, name]
    split
    · rfl
    · rw [List.map_cons, ih]

theorem Attributes.erase_set (as : Attributes) (identifier : String) (v : AttributeValue) :
    (as.set identifier v).erase = as.erase.set identifier v.erase :=
  congrArg Attributes.mk (erase_setEntry _ _)

theorem DocumentConfig.Alike.apply {config config' : DocumentConfig}
    {setting setting' : Setting AttributeValue} (h : config.Alike config')
    (hs : setting.Alike AttributeValue.Alike setting') :
    (config.apply setting).Alike (config'.apply setting') := by
  cases hs with
  | title t t' => exact ⟨rfl, h.html, h.viewport, h.urls⟩
  | lang l l' =>
    refine ⟨h.title, ?_, h.viewport, h.urls⟩
    simp only [DocumentConfig.apply, withLang, withHtmlAttribute, Attributes.erase_set, h.html]
    rfl
  | htmlAttribute identifier hv =>
    refine ⟨h.title, ?_, h.viewport, h.urls⟩
    simp only [DocumentConfig.apply, withHtmlAttribute, Attributes.erase_set, h.html]
    rw [hv]
  | viewport enabled => exact ⟨h.title, h.html, rfl, h.urls⟩
  | viewportContent v v' => exact ⟨h.title, h.html, rfl, h.urls⟩
  | url hu => exact ⟨h.title, h.html, h.viewport, List.rel_append h.urls (.cons hu .nil)⟩

theorem DocumentConfig.Alike.applyAll {config config' : DocumentConfig}
    {settings settings' : List (Setting AttributeValue)} (h : config.Alike config')
    (hs : List.Forall₂ (Setting.Alike AttributeValue.Alike) settings settings') :
    (settings.foldl DocumentConfig.apply config).Alike
      (settings'.foldl DocumentConfig.apply config') := by
  induction hs generalizing config config' with
  | nil => exact h
  | cons hs _ ih => exact ih (h.apply hs)

/-! ## The parts of a document -/

namespace Builder

variable {b b' : Builder}

theorem erase_giveAttribute (b : Builder) (identifier : String) (v : AttributeValue) :
    (b.giveAttribute identifier v).value.erase =
      (b.erase.giveAttribute identifier v.erase).value :=
  erase_giveAttributes b _

theorem erase_element {identifier : String}
    (h : ¬ ElementKind.Raw (ElementKind.ofName (htmlName identifier))) (b : Builder)
    (text : String) :
    (b.element identifier text).erase = b.erase.element identifier "" := by
  rw [element, element, erase_close, erase_pushText, erase_tag]
  exact h

theorem erase_withRoot {html html' : Attributes} (hb : b.erase = b'.erase)
    (h : html.erase = html'.erase) :
    (b.withRoot html).value.erase = (b'.withRoot html').value.erase := by
  have empty (as : Attributes) : as.isEmpty = as.erase.isEmpty := by
    simp [Attributes.isEmpty, Attributes.erase]
  unfold withRoot
  rw [empty html, h, ← empty html']
  split
  · exact hb
  · rw [erase_giveAttributes, erase_giveAttributes, erase_tag, erase_tag, hb, h]

theorem erase_withTitle {title title' : Option String} (hb : b.erase = b'.erase)
    (h : title.isSome = title'.isSome) :
    (b.withTitle title).value.erase = (b'.withTitle title').value.erase := by
  have normal : ¬ ElementKind.Raw (ElementKind.ofName (htmlName "title")) := by decide
  cases title <;> cases title' <;> simp at h
  · exact hb
  · simp [withTitle, erase_element normal, erase_giveAttribute, erase_tag, hb]

theorem erase_withViewport {viewport viewport' : Option String} (hb : b.erase = b'.erase)
    (h : viewport.isSome = viewport'.isSome) :
    (b.withViewport viewport).value.erase = (b'.withViewport viewport').value.erase := by
  cases viewport <;> cases viewport' <;> simp at h
  · exact hb
  · simp [withViewport, erase_giveAttribute, erase_tag, AttributeValue.erase, hb]

theorem erase_head {config config' : DocumentConfig} (hb : b.erase = b'.erase)
    (h : config.Alike config') :
    (b.head config).value.erase = (b'.head config').value.erase := by
  rw [head_eq, head_eq]
  exact erase_withViewport (erase_withTitle (erase_withRoot hb h.html) h.title) h.viewport

theorem erase_link (hb : b.erase = b'.erase) (url url' : String) (r : Resource) :
    (b.link url r).value.erase = (b'.link url' r).value.erase := by
  cases r <;>
    simp [link, erase_giveAttribute, erase_giveAttributes, erase_tag, erase_close,
      AttributeValue.erase, hb]

theorem erase_links {rs rs' : List (String × Resource)} (hb : b.erase = b'.erase)
    (h : List.Forall₂ (fun r r' => r.2 = r'.2) rs rs') :
    (rs.foldlM (fun (b : Builder) (url, r) => b.link url r) b).value.erase =
      (rs'.foldlM (fun (b : Builder) (url, r) => b.link url r) b').value.erase := by
  induction h generalizing b b' with
  | nil => exact hb
  | @cons r r' _ _ hr _ ih =>
    rw [List.foldlM_cons, List.foldlM_cons, Logged.value_bind, Logged.value_bind]
    simp only [hr]
    exact ih (erase_link hb _ _ _)

end Builder

/-- The resources are found for both, and linked in the same ways, or for none. -/
theorem classify_alike {urls urls' : List String}
    (h : List.Forall₂
      (fun u u' => (Resource.classify u).toOption = (Resource.classify u').toOption) urls urls') :
    Option.Rel (List.Forall₂ fun r r' => r.2 = r'.2)
      (urls.mapM fun url => (url, ·) <$> Resource.classify url).toOption
      (urls'.mapM fun url => (url, ·) <$> Resource.classify url).toOption := by
  induction h with
  | nil => exact .some .nil
  | @cons u u' us us' hu _ ih =>
    rw [List.mapM_cons, List.mapM_cons]
    cases hc : Resource.classify u with
    | error e =>
      cases hc' : Resource.classify u' with
      | error e' => exact .none
      | ok r' => simp [hc, hc', Except.toOption] at hu
    | ok r =>
      cases hc' : Resource.classify u' with
      | error e' => simp [hc, hc', Except.toOption] at hu
      | ok r' =>
        have same : r = r' := by simpa [hc, hc', Except.toOption] using hu
        revert ih
        cases us.mapM fun url => (url, ·) <$> Resource.classify url <;>
          cases us'.mapM fun url => (url, ·) <$> Resource.classify url <;> intro ih <;> cases ih
        · exact .none
        · rename_i h
          exact .some (.cons same h)

/-- Both configurations make a document, and these differ in texts only, or none does. -/
theorem document_alike {config config' : DocumentConfig} (h : config.Alike config') :
    Option.Rel (fun doc doc' => doc.value.erase = doc'.value.erase)
      (document config).toOption (document config').toOption := by
  have resources := classify_alike h.urls
  unfold document
  revert resources
  cases config.urls.mapM fun url => (url, ·) <$> Resource.classify url <;>
    cases config'.urls.mapM fun url => (url, ·) <$> Resource.classify url <;>
    intro resources <;> cases resources
  · exact .none
  · rename_i linked
    exact .some (Builder.erase_links (Builder.erase_head rfl h) linked)

end Hypertext
