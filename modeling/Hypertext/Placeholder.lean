import Hypertext.BuildError
import Hypertext.Reach

/-! # Placeholders

A placeholder keeps a place in a builder's output for content that comes later. Its content lives in
a slot, so every handle to it, and every builder it is embedded in, sees the latest. -/

namespace Hypertext

/-- What an operation that may be refused leaves behind. -/
structure Outcome (σ : Type) where
  state : σ
  log : List Message := []
  refusal : Option BuildError := none

namespace Handle

/-- Why the slot takes no content: the content leads back to it, or the slot is being edited. -/
def refusal? (h : Handle) (c : Content) (st : Store) : Option BuildError :=
  if c.leadsTo st h.slot then some (.selfReference h.name)
  else if st.isEdited h.slot then some (.slotBusy h.name)
  else none

/-- Content comes behind what the slot holds. -/
def add (h : Handle) (c : Content) (st : Store) : Outcome Store :=
  match h.refusal? c st with
  | some e => { state := st, refusal := some e }
  | none =>
    let filled := (st.builder h.slot).content c st
    { state := st.put h.slot filled.value, log := filled.log }

/-- Content takes the place of what the slot holds. -/
def set (h : Handle) (c : Content) (st : Store) : Outcome Store :=
  match h.refusal? c st with
  | some e => { state := st, refusal := some e }
  | none =>
    let filled := (st.builder h.slot).reset.content c st
    { state := st.put h.slot filled.value, log := .replaced h.name :: filled.log }

/-- The slot is emptied. -/
def clear (h : Handle) (st : Store) : Outcome Store :=
  if st.isEdited h.slot then { state := st, refusal := some (.slotBusy h.name) }
  else
    { state := st.put h.slot (st.builder h.slot).reset, log := [.cleared h.name] }

end Handle

/-- A new slot with the placeholder that refers to it. -/
structure Declared where
  handle : Handle
  registry : Registry
  store : Store

namespace Registry

/-- A new slot is filed under the name, which must be new to the registry. -/
def declare (r : Registry) (name : String) (st : Store) : Except BuildError Declared :=
  if r.contains name then .error (.duplicateName name)
  else
    let handle := { name, slot := st.size, isPlaceholder := true }
    .ok { handle, registry := r.insert name handle, store := st.allocate { name } }

end Registry

namespace Builder

/-- A new placeholder comes behind the fragments and leaves the pending element open. -/
def place (b : Builder) (name : String) (st : Store) : Outcome (Builder × Store) :=
  match b.placeholders.declare name st with
  | .error e => { state := (b, st), refusal := some e }
  | .ok d =>
    { state := ({ b with placeholders := d.registry }.push (.slot d.handle), d.store)
      log := [.placed b.name name b.fragments.size] }

/-- A new placeholder that holds content from the start. -/
def placeWith (b : Builder) (name : String) (c : Content) (st : Store) :
    Outcome (Builder × Store) :=
  match b.placeholders.declare name st with
  | .error e => { state := (b, st), refusal := some e }
  | .ok d =>
    let b := { b with placeholders := d.registry }
    let filled := d.handle.add c d.store
    match filled.refusal with
    | some e => { state := (b, filled.state), log := filled.log, refusal := some e }
    | none =>
      { state := (b.push (.slot d.handle), filled.state)
        log := filled.log ++ [.placed b.name name b.fragments.size] }

/-- The handle of a placeholder that the builder knows. -/
def placeholder (b : Builder) (name : String) : Except BuildError Handle :=
  match b.placeholders.find? name with
  | some h => .ok h
  | none => .error (.unknownPlaceholder name)

/-- Content takes the place of what a placeholder holds. -/
def set (b : Builder) (name : String) (c : Content) (st : Store) : Outcome Store :=
  match b.placeholder name with
  | .error e => { state := st, refusal := some e }
  | .ok h => h.set c st

/-- A placeholder is emptied. -/
def clear (b : Builder) (name : String) (st : Store) : Outcome Store :=
  match b.placeholder name with
  | .error e => { state := st, refusal := some e }
  | .ok h => h.clear st

/-- The handle of a builder that becomes a slot of its own. Where the handle is embedded, the
builder is referred to and not copied. -/
def sharedHandle (b : Builder) (st : Store) : Handle :=
  { name := b.name, slot := st.size, isPlaceholder := false }

end Builder

end Hypertext
