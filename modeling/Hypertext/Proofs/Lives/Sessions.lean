import Hypertext.Proofs.Lives.Events
import Hypertext.Proofs.Names.Sessions
import Hypertext.Proofs.Nesting.Sessions
import Hypertext.Proofs.Session.Every

/-! # Lives in a session

Every builder of a session has a life: those in variables, those in slots, and those that were
shared or edited on the way. A step on a variable is one more event in the life of its builder. -/

namespace Hypertext.Session

open Builder (HasLife)

variable {s t u : Session} {name : String} {b : Builder}

/-- All builders have lives. -/
structure HasLives (s : Session) : Prop where
  store : s.store.HasLives
  own : ∀ name b, (name, Site.own b) ∈ s.builders.entries → b.HasLife

/-- A call is one more event, and so is the end of a scope. -/
theorem kept_hasLife : Builder.Kept HasLife fun _ => True where
  new := .new
  document := .document
  call call _ _ hb _ _ := hb.call call _
  leaveScope hb := hb.after .leaveScope
  supplied _ _ := trivial

theorem Reachable.hasLives (h : s.Reachable) : s.HasLives where
  store := (h.every kept_hasLife).store
  own := (h.every kept_hasLife).own

/-- Every builder that a session holds has a life. -/
theorem Reachable.hasLife (h : s.Reachable) (hb : s.Holds b) : b.HasLife := by
  rcases hb with ⟨i, _, rfl⟩ | ⟨name, he⟩
  · exact h.hasLives.store i
  · exact h.hasLives.own name b he

/-! ## Steps are events -/

/-- A call on a variable is an event in the life of its builder. -/
theorem Reachable.builder?_call {e : BuilderCall ContentExpr ValueExpr TextExpr}
    {call : BuilderCall Content AttributeValue String} (hs : s.Reachable)
    (he : (Eval.builderCall e).Returns s call u) (hb : u.builder? name = some b) :
    (s.perform (.call name e)).session.builder? name = some (b.after (.call call u.store)) := by
  obtain ⟨sound, _, within⟩ := hs.sound.builderCall he
  obtain ⟨place, has⟩ := exists_has hb
  have respects := call.respects_run b u.store
  obtain ⟨_, kept⟩ := BuilderCall.scoped_run (sound.builder? hb) sound.store within
  have called :=
    has.frame (t := { u with store := (call.run b u.store).state.2 }) sound rfl respects
  rw [session_perform_call he hb]
  exact (called.putBuilder_self (sound.withStore respects kept) _).builder?

/-- The end of a scope is an event in the life of the builder that has the scope. -/
theorem Reachable.builder?_leaveScope (hs : s.Reachable) (hb : s.builder? name = some b) :
    (s.act (.leaveScope name)).builder? name = some (b.after .leaveScope) := by
  obtain ⟨place, has⟩ := exists_has hb
  exact (has.leaveScope hs.sound).builder?

end Hypertext.Session
