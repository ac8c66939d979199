/-! # Kinds of elements

HTML forbids the end tag of some elements and lets others leave it out. The kind of an element
decides its end tag, and how its text is written. -/

namespace Hypertext

inductive ElementKind where
  /-- No content and no end tag. -/
  | void
  /-- The end tag is understood and may be left out. -/
  | optionalEnd
  /-- Raw text up to `</script>`. -/
  | script
  /-- Raw text up to `</style>`. -/
  | style
  /-- Every other element: it needs its end tag. -/
  | normal
deriving DecidableEq, Repr

namespace ElementKind

def voidElements : List String :=
  ["area", "base", "br", "col", "embed", "hr", "img", "input", "keygen", "link", "menuitem",
    "meta", "param", "source", "track", "wbr"]

def optionalEndElements : List String :=
  ["html", "head", "body", "p", "colgroup", "thead", "tbody", "tfoot", "tr", "th", "td", "li",
    "dt", "dd", "optgroup", "option"]

/-- The name in small letters; letters beyond ASCII stay as they are. -/
def lowercase (name : String) : String :=
  String.ofList (name.toList.map Char.toLower)

/-- The kind of the element of a name, in any letter case. -/
def ofName (name : String) : ElementKind :=
  let name := lowercase name
  if name ∈ voidElements then void
  else if name ∈ optionalEndElements then optionalEnd
  else if name = "script" then script
  else if name = "style" then style
  else normal

/-- The end tag is written also when nothing but the next tag closes the element. -/
def requiresEndTag : ElementKind → Bool
  | script | style | normal => true
  | void | optionalEnd => false

def isVoid (kind : ElementKind) : Bool :=
  kind = void

end ElementKind

end Hypertext
