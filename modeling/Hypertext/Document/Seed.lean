import Hypertext.Content
import Hypertext.Document.Config
import Hypertext.Document.Resource

/-! # New documents

A document starts with its doctype and what its configuration says about its head. The elements in
it are closed as far as they have to be, so that what is added later follows. -/

namespace Hypertext

namespace Builder

/-- The element that links a resource. -/
def link (b : Builder) (url : String) : Resource → Logged Builder
  | .link attributes => do
    let b ← (b.tag "link").giveAttribute "href" (.text url)
    b.giveAttributes attributes
  | .script => do
    let b ← (b.tag "script").giveAttribute "src" (.text url)
    close <$> b.giveAttribute "defer" (.flag true)
  | .scriptModule => do
    let b ← (b.tag "script").giveAttribute "src" (.text url)
    close <$> b.giveAttribute "type" (.text "module")

/-- The elements for the root, the title and the viewport, as far as the configuration has them. -/
def head (b : Builder) (config : DocumentConfig) : Logged Builder := do
  let b ← if config.html.isEmpty then pure b else (b.tag "html").giveAttributes config.html
  let b ← match config.title with
    | none => pure b
    | some title => do
      let b ← (b.tag "meta").giveAttribute "charset" (.text "utf-8")
      pure (b.element "title" title)
  match config.viewport with
  | none => pure b
  | some viewport => do
    let b ← (b.tag "meta").giveAttribute "name" (.text "viewport")
    b.giveAttribute "content" (.text viewport)

end Builder

def doctype : Piece := .text "<!DOCTYPE html>"

/-- A new document. Every URL must be one that is known how to link. -/
def document (config : DocumentConfig) : Except BuildError (Logged Builder) := do
  let resources ← config.urls.mapM fun url => (url, ·) <$> Resource.classify url
  let start : Builder := { name := "Document Builder" }
  return do
    let b ← (start.pushPiece doctype).head config
    let b ← resources.foldlM (fun b (url, resource) => b.link url resource) b
    ⟨b, [.seeded config.urls.length]⟩

end Hypertext
