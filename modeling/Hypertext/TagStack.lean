import Hypertext.Element
import Hypertext.Fragment

/-! # Open elements

At most one element is pending: the one whose tag came last, as long as it is not known whether more
content follows. Elements held open by a scope are stacked below it. -/

namespace Hypertext

/-- The pending element. -/
structure OpenTag where
  name : String
  /-- Where its start tag stands among the fragments. -/
  position : Nat
deriving DecidableEq, Repr

def OpenTag.kind (tag : OpenTag) : ElementKind :=
  .ofName tag.name

/-- What a scope leaves to be written at its end. -/
structure Scope where
  /-- The kind of the element that text inside the scope belongs to. -/
  kind : Option ElementKind
  /-- The name of the element whose end tag the scope owes. -/
  owes : Option String
deriving DecidableEq, Repr

structure TagStack where
  pending : Option OpenTag := none
  /-- The open scopes, innermost first. -/
  scopes : List Scope := []
deriving DecidableEq, Repr

namespace TagStack

/-- The end tag that the pending element needs when it is closed. -/
def impliedEnd (s : TagStack) : Option String :=
  s.pending.bind fun tag => if tag.kind.requiresEndTag then some tag.name else none

/-- The kind of the element that text lands in: the pending element, else the innermost scope. -/
def textKind (s : TagStack) : Option ElementKind :=
  match s.pending with
  | some tag => some tag.kind
  | none => s.scopes.head?.bind Scope.kind

/-- The scope that the pending element becomes. It owes the end tag of every element but a void one.
A scope without an element keeps the kind of the scope around it. -/
def scopeOfPending (s : TagStack) : Scope where
  kind := s.textKind
  owes := s.pending.bind fun tag => if tag.kind.isVoid then none else some tag.name

def enter (s : TagStack) : TagStack where
  pending := none
  scopes := s.scopeOfPending :: s.scopes

def depth (s : TagStack) : Nat :=
  s.scopes.length

/-- The names of the end tags that are missing, in the order in which they have to be written. -/
def owed (s : TagStack) : List String :=
  s.impliedEnd.toList ++ s.scopes.filterMap Scope.owes

end TagStack

end Hypertext
