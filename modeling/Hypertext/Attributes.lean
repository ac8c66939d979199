import Hypertext.Escape.Entity
import Hypertext.Name

/-! # Attributes

An attribute list keeps the order in which its entries were given. An entry keeps the identifier as
it was spelled; two entries are of one attribute when their identifiers spell the same name. -/

namespace Hypertext

inductive AttributeValue where
  /-- The bare name when set, nothing otherwise. -/
  | flag (set : Bool)
  /-- Left out. -/
  | absent
  | text (value : String)
deriving DecidableEq, Repr

structure Attribute where
  identifier : String
  value : AttributeValue
deriving DecidableEq, Repr

namespace Attribute

def name (a : Attribute) : String :=
  htmlName a.identifier

/-- The attribute as it stands in a start tag, a space before it. -/
def html (a : Attribute) : String :=
  match a.value with
  | .flag true => " " ++ a.name
  | .flag false | .absent => ""
  | .text value => " " ++ a.name ++ "=" ++ Escape.escapeAttribute value

end Attribute

structure Attributes where
  entries : List Attribute := []
deriving DecidableEq, Repr

namespace Attributes

def push (as : Attributes) (identifier : String) (value : AttributeValue) : Attributes :=
  ⟨as.entries ++ [⟨identifier, value⟩]⟩

def append (as bs : Attributes) : Attributes :=
  ⟨as.entries ++ bs.entries⟩

instance : Append Attributes := ⟨append⟩

/-- The first entry of the attribute is replaced where it stands; without one, `a` comes last. -/
def setEntry (a : Attribute) : List Attribute → List Attribute
  | [] => [a]
  | e :: es => if e.name = a.name then a :: es else e :: setEntry a es

def set (as : Attributes) (identifier : String) (value : AttributeValue) : Attributes :=
  ⟨setEntry ⟨identifier, value⟩ as.entries⟩

def isEmpty (as : Attributes) : Bool :=
  as.entries.isEmpty

/-- The attributes as they stand in a start tag, behind its name. -/
def html (as : Attributes) : String :=
  String.join (as.entries.map Attribute.html)

@[simp] theorem entries_append (as bs : Attributes) :
    (as ++ bs).entries = as.entries ++ bs.entries := rfl

@[simp] theorem entries_push (as : Attributes) (identifier : String) (value : AttributeValue) :
    (as.push identifier value).entries = as.entries ++ [⟨identifier, value⟩] := rfl

@[simp] theorem entries_set (as : Attributes) (identifier : String) (value : AttributeValue) :
    (as.set identifier value).entries = setEntry ⟨identifier, value⟩ as.entries := rfl

/-- Attributes given one after the other read as attributes given at once. -/
@[simp] theorem html_append (as bs : Attributes) : (as ++ bs).html = as.html ++ bs.html := by
  apply String.toList_inj.mp
  simp [html, String.toList_join]

end Attributes

end Hypertext
