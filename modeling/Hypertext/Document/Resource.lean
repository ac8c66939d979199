import Hypertext.Attributes
import Hypertext.BuildError

/-! # Linked resources

How a document links a resource is read off the last segment of its URL: first the whole file name
decides, then the extension. -/

namespace Hypertext

inductive Resource where
  /-- `<link href=…>` with these attributes behind. -/
  | link (attributes : Attributes)
  /-- `<script src=… defer>` -/
  | script
  /-- `<script src=… type=module>` -/
  | scriptModule
deriving DecidableEq, Repr

namespace Resource

/-- What a text has behind the last `mark`; without a mark, the whole text. -/
def afterLast (mark : Char) (text : List Char) : List Char :=
  (text.reverse.takeWhile (· != mark)).reverse

structure LinkType where
  /-- A file name or an extension. -/
  key : String
  rel : String
  mime : Option String

def linkTypes : List LinkType :=
  [⟨"manifest.json", "manifest", none⟩,
    ⟨"css", "stylesheet", none⟩,
    ⟨"png", "icon", some "image/png"⟩,
    ⟨"svg", "icon", some "image/svg+xml"⟩,
    ⟨"ico", "icon", some "image/x-icon"⟩,
    ⟨"webp", "icon", some "image/webp"⟩,
    ⟨"avif", "icon", some "image/avif"⟩]

def LinkType.attributes (t : LinkType) : Attributes :=
  ⟨[⟨"rel", .text t.rel⟩, ⟨"type", t.mime.elim .absent .text⟩]⟩

def linkFor? (key : List Char) : Option Attributes :=
  (linkTypes.find? (·.key.toList = key)).map LinkType.attributes

/-- The way to link a URL. A word without a dot is looked up among the link types all the same,
but is no script. -/
def classify (url : String) : Except BuildError Resource :=
  let file := afterLast '/' url.toList
  let extension := afterLast '.' file
  match (linkFor? file).or (linkFor? extension) with
  | some attributes => .ok (.link attributes)
  | none =>
    if extension = ['j', 's'] ∧ '.' ∈ file then .ok .script
    else if extension = ['m', 'j', 's'] ∧ '.' ∈ file then .ok .scriptModule
    else .error (.unknownResource url)

end Resource

end Hypertext
