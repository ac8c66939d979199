import Hypertext.Session.Bindings
import Hypertext.Session.Call

/-! # Sessions

A session is a store with variables for builders, handles and registries. A builder variable stands
for a builder of its own, or for the builder of a slot that is being edited. -/

namespace Hypertext

inductive Site where
  | own (builder : Builder)
  | slot (slot : SlotId)
deriving Repr

structure Session where
  store : Store := {}
  builders : Bindings Site := {}
  handles : Bindings Handle := {}
  registries : Bindings Registry := {}

def Site.isSlot (i : SlotId) : Site → Bool
  | .own _ => false
  | .slot j => i == j

namespace Session

def builderAt (s : Session) : Site → Builder
  | .own b => b
  | .slot i => s.store.builder i

def builder? (s : Session) (name : String) : Option Builder :=
  (s.builders.find? name).map s.builderAt

/-- The variable's builder changes where it is: a slot that is edited through the variable holds the
new one. A new variable has the builder for its own. -/
def putBuilder (s : Session) (name : String) (b : Builder) : Session :=
  match s.builders.find? name with
  | some (.slot i) => { s with store := s.store.put i b }
  | _ => { s with builders := s.builders.insert name (.own b) }

def bindHandle (s : Session) (name : String) (h : Handle) : Session :=
  { s with handles := s.handles.insert name h }

def bindRegistry (s : Session) (name : String) (r : Registry) : Session :=
  { s with registries := s.registries.insert name r }

/-- A call on the builder of a variable. -/
def callBuilder (s : Session) (name : String) (b : Builder)
    (call : BuilderCall Content AttributeValue String) : Outcome Session :=
  (call.run b s.store).map fun (b, store) => { s with store }.putBuilder name b

/-- A call on a handle. -/
def callHandle (s : Session) (h : Handle) (call : HandleCall Content) : Outcome Session :=
  (call.run h s.store).map fun store => { s with store }

/-- The builder becomes a slot, and its handle gets a variable. -/
def share (s : Session) (b : Builder) (target : String) : Session :=
  { s with store := s.store.allocate b }.bindHandle target (b.sharedHandle s.store)

/-- The pending element of the variable's builder is entered as a scope. -/
def enterScope (s : Session) (name : String) (b : Builder) : Logged Session :=
  s.putBuilder name <$> b.enterScope

/-- The innermost scope of the variable's builder ends, if the variable is still there. -/
def leaveScope (s : Session) (name : String) : Session :=
  match s.builder? name with
  | some b => s.putBuilder name b.leaveScope
  | none => s

/-- The slot is edited through the variable from now on, which may shadow another one. -/
def beginEdit (s : Session) (i : SlotId) (name : String) : Session :=
  { s with
    store := s.store.setEditing i true
    builders := s.builders.push name (.slot i) }

/-- The slot is free again, and no variable stands for its builder any longer. -/
def endEdit (s : Session) (i : SlotId) : Session :=
  { s with
    store := s.store.setEditing i false
    builders := s.builders.keep fun site => !site.isSlot i }

end Session

end Hypertext
