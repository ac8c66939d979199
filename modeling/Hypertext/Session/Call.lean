import Hypertext.Placeholder

/-! # Calls

An operation on a builder or handle as a value. The parameters stand for the kinds of what is given
to it: contents `γ`, attribute values `α` and texts `τ`. -/

namespace Hypertext

inductive BuilderCall (γ α τ : Type) where
  | tag (identifier : String)
  | attributes (given : List (String × α))
  | content (c : γ)
  | contents (cs : List γ)
  | append (c : γ)
  | close
  | script (code : String)
  | style (rules : String)
  | comment (text : τ)
  /-- A scope is opened and left open. -/
  | enterScope
  | place (name : String)
  | placeWith (name : String) (c : γ)
  | set (name : String) (c : γ)
  | clear (name : String)
  | reset

inductive HandleCall (γ : Type) where
  | set (c : γ)
  | add (c : γ)
  | clear

namespace Outcome

variable {σ τ : Type}

def ofLogged (f : σ → τ) (x : Logged σ) : Outcome τ :=
  { state := f x.value, log := x.log }

def map (f : σ → τ) (o : Outcome σ) : Outcome τ :=
  { state := f o.state, log := o.log, refusal := o.refusal }

end Outcome

/-- What a call does to a builder and the store. -/
def BuilderCall.run (b : Builder) (st : Store) :
    BuilderCall Content AttributeValue String → Outcome (Builder × Store)
  | tag identifier => { state := (b.tag identifier, st) }
  | attributes given =>
    .ofLogged (·, st) (b.giveAttributes ⟨given.map fun (identifier, v) => ⟨identifier, v⟩⟩)
  | content c => .ofLogged (·, st) (b.content c st)
  | contents cs => .ofLogged (·, st) (b.contents cs st)
  | append c => .ofLogged (·, st) (b.append c st)
  | close => { state := (b.close, st) }
  | script code => { state := (b.script code, st) }
  | style rules => { state := (b.style rules, st) }
  | comment text => { state := (b.comment text, st) }
  | enterScope => .ofLogged (·, st) b.enterScope
  | place name => b.place name st
  | placeWith name c => b.placeWith name c st
  | set name c => (b.set name c st).map (b, ·)
  | clear name => (b.clear name st).map (b, ·)
  | reset => { state := (b.reset, st) }

/-- What a call does to the store. -/
def HandleCall.run (h : Handle) (st : Store) : HandleCall Content → Outcome Store
  | set c => h.set c st
  | add c => h.add c st
  | clear => h.clear st

end Hypertext
