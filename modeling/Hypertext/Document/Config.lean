import Hypertext.Attributes

/-! # Document configurations

What the head of a document is made of. -/

namespace Hypertext

structure DocumentConfig where
  title : Option String := none
  /-- The attributes of the `<html>` element. -/
  html : Attributes := {}
  /-- The content of the viewport's `<meta>` element. -/
  viewport : Option String := none
  /-- Resources to link. -/
  urls : List String := []
deriving DecidableEq, Repr

namespace DocumentConfig

def defaultViewport : String := "width=device-width,initial-scale=1"

def withTitle (config : DocumentConfig) (title : String) : DocumentConfig :=
  { config with title }

/-- The attribute of the `<html>` element has this value, whatever it had before. -/
def withHtmlAttribute (config : DocumentConfig) (identifier : String) (value : AttributeValue) :
    DocumentConfig :=
  { config with html := config.html.set identifier value }

def withLang (config : DocumentConfig) (lang : String) : DocumentConfig :=
  config.withHtmlAttribute "lang" (.text lang)

/-- The default viewport, or none. -/
def withViewport (config : DocumentConfig) (enabled : Bool) : DocumentConfig :=
  { config with viewport := if enabled then some defaultViewport else none }

def withViewportContent (config : DocumentConfig) (viewport : String) : DocumentConfig :=
  { config with viewport }

def withUrl (config : DocumentConfig) (url : String) : DocumentConfig :=
  { config with urls := config.urls ++ [url] }

end DocumentConfig

/-- One change to a configuration; `α` stands for the values of attributes. -/
inductive Setting (α : Type) where
  | title (title : String)
  | lang (lang : String)
  | htmlAttribute (identifier : String) (value : α)
  | viewport (enabled : Bool)
  | viewportContent (viewport : String)
  | url (url : String)

def DocumentConfig.apply (config : DocumentConfig) : Setting AttributeValue → DocumentConfig
  | .title title => config.withTitle title
  | .lang lang => config.withLang lang
  | .htmlAttribute identifier value => config.withHtmlAttribute identifier value
  | .viewport enabled => config.withViewport enabled
  | .viewportContent viewport => config.withViewportContent viewport
  | .url url => config.withUrl url

end Hypertext
