import Hypertext.Proofs.Document.Parts
import Hypertext.Proofs.Rendering.Endings
import Hypertext.Proofs.Slots.Scoped

/-! # Lives of builders

A builder starts empty; then calls are made on it, and scopes of it end. These events in order are
its life. What a call finds in the store when it is made is part of the event, so the events alone
decide what becomes of the builder. -/

namespace Hypertext

namespace Builder

/-- What happens to a builder. -/
inductive Event where
  /-- A call, with the store as it is then. -/
  | call (call : BuilderCall Content AttributeValue String) (st : Store)
  /-- The innermost scope ends. -/
  | leaveScope

def after (b : Builder) : Event → Builder
  | .call call st => (call.run b st).state.1
  | .leaveScope => b.leaveScope

def afterAll (b : Builder) (events : List Event) : Builder :=
  events.foldl after b

@[simp] theorem afterAll_nil (b : Builder) : b.afterAll [] = b := rfl

@[simp] theorem afterAll_append (b : Builder) (events more : List Event) :
    b.afterAll (events ++ more) = (b.afterAll events).afterAll more :=
  List.foldl_append

/-- The events have made the builder from an empty one. -/
def Lived (events : List Event) (b : Builder) : Prop :=
  ∃ name, afterAll { name } events = b

/-- Some events have made the builder from an empty one. -/
def HasLife (b : Builder) : Prop :=
  ∃ events, b.Lived events

variable {b : Builder}

theorem Lived.append {events : List Event} (h : b.Lived events) (more : List Event) :
    (b.afterAll more).Lived (events ++ more) := by
  obtain ⟨name, rfl⟩ := h
  exact ⟨name, afterAll_append _ events more⟩

namespace HasLife

theorem new (name : String) : HasLife { name } :=
  ⟨[], name, rfl⟩

theorem after (h : b.HasLife) (event : Event) : (b.after event).HasLife := by
  obtain ⟨events, lived⟩ := h
  exact ⟨_, lived.append [event]⟩

theorem call (h : b.HasLife) (call : BuilderCall Content AttributeValue String) (st : Store) :
    (call.run b st).state.1.HasLife :=
  h.after (.call call st)

/-! ## Documents -/

theorem tag (h : b.HasLife) (identifier : String) : (b.tag identifier).HasLife :=
  h.call (.tag identifier) {}

theorem giveAttributes (h : b.HasLife) (given : Attributes) :
    (b.giveAttributes given).value.HasLife := by
  have called := h.call (.attributes (given.entries.map fun a => (a.identifier, a.value))) {}
  simpa [BuilderCall.run, Outcome.ofLogged, Function.comp_def] using called

theorem close (h : b.HasLife) : b.close.HasLife :=
  h.call .close {}

theorem pushText (h : b.HasLife) (text : String) : (b.pushText text).HasLife :=
  h.call (.append (.text text)) {}

theorem document {config : DocumentConfig} {doc : Logged Builder}
    (h : document config = .ok doc) : doc.value.HasLife := by
  have builds : Policy.any.Builds HasLife :=
    { tag := fun _ hb => hb.tag _
      giveAttributes := fun _ hb => hb.giveAttributes _
      pushText := fun text hb => hb.pushText text
      close := HasLife.close }
  have start : (({ name := "Document Builder" } : Builder).pushPiece doctype).HasLife :=
    (new _).call (.append (.markup "<!DOCTYPE html>")) {}
  exact builds.document Policy.any_documents (Policy.any_config config) start h

end HasLife

end Builder

/-! ## Slots -/

/-- Every slot's builder has a life. -/
def Store.HasLives (st : Store) : Prop :=
  ∀ i, (st.builder i).HasLife

end Hypertext
