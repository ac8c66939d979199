import Hypertext.Content
import Hypertext.Proofs.Builder.Parts
import Hypertext.Proofs.Rendering.Walk
import Mathlib.Logic.Function.Iterate

/-! # Endings

A builder can be ended in several ways: rendered, closed scope by scope, copied, or embedded. All
of them put the same end tags behind its fragments. So what a builder comes to is said by its
fragments with the end tags that it owes, `Builder.ended`, and each way keeps that. -/

namespace Hypertext

@[simp] theorem Piece.render_append (ps qs : List Piece) :
    Piece.render (ps ++ qs) = Piece.render ps ++ Piece.render qs := by
  apply String.toList_inj.mp
  simp

theorem Piece.render_cons (p : Piece) (ps : List Piece) :
    Piece.render (p :: ps) = p.html ++ Piece.render ps := by
  apply String.toList_inj.mp
  simp

namespace Builder

/-- The fragments, with the end tags that are missing behind them. -/
def ended (b : Builder) : List Fragment :=
  b.fragments.toList ++ endTags b.stack.owed

theorem flatten_eq_walk (st : Store) (b : Builder) :
    st.flatten b = Store.walkFragments (st.walkSlot st.depthBound) b.ended [] :=
  Store.walkBuilder_eq (Store.marks_walkSlot st _) b []

/-- Builders with the same ended fragments are rendered alike, now and later. -/
theorem render_congr {b c : Builder} (h : b.ended = c.ended) (st : Store) :
    b.render st = c.render st := by
  rw [render, render, flatten_eq_walk, flatten_eq_walk, h]

/-! ## Closing for real -/

@[simp] theorem ended_close (b : Builder) : b.close.ended = b.ended := by
  simp [ended, TagStack.owed, TagStack.impliedEnd]

/-- The innermost scope's end tag goes from the stack to the fragments. -/
@[simp] theorem ended_leaveScope (b : Builder) : b.leaveScope.ended = b.ended := by
  cases h : b.stack.scopes with
  | nil => rw [leaveScope_of_nil h, ended_close]
  | cons scope scopes =>
    rw [ended, ended, toList_leaveScope, stack_leaveScope]
    cases ho : scope.owes <;> simp [h, ho, TagStack.owed, TagStack.impliedEnd]

theorem stack_iterate_leaveScope (n : Nat) (b : Builder) (h : b.stack.pending = none) :
    (leaveScope^[n] b).stack = { scopes := b.stack.scopes.drop n } := by
  induction n generalizing b with
  | zero =>
    rw [Function.iterate_zero, id, List.drop_zero, ← h]
  | succ n ih =>
    rw [Function.iterate_succ_apply, ih b.leaveScope (by rw [stack_leaveScope]),
      stack_leaveScope, List.drop_tail]

theorem ended_iterate_leaveScope (n : Nat) (b : Builder) :
    (leaveScope^[n] b).ended = b.ended := by
  induction n generalizing b with
  | zero => rfl
  | succ n ih => rw [Function.iterate_succ_apply, ih, ended_leaveScope]

/-! ## Copies -/

@[simp] theorem ended_snapshot (b : Builder) : b.snapshot.ended = b.ended := by
  simp [ended, snapshot, TagStack.owed, TagStack.impliedEnd]

@[simp] theorem name_snapshot (b : Builder) : b.snapshot.name = b.name := by
  simp [snapshot]

@[simp] theorem placeholders_snapshot (b : Builder) : b.snapshot.placeholders = b.placeholders := by
  simp [snapshot]

/-! ## Embedding -/

/-- The host takes over the snippet's ended fragments and its placeholders, nothing else. -/
theorem value_adopt (host snippet : Builder) :
    (host.adopt snippet).value =
      { host with
        placeholders := (host.placeholders.merge snippet.placeholders).value
        fragments := host.fragments ++ snippet.ended.toArray } := by
  unfold adopt
  split <;> simp [pushEnds_eq, ended, ← Array.toList_inj]

theorem toList_adopt (host snippet : Builder) :
    (host.adopt snippet).value.fragments.toList = host.fragments.toList ++ snippet.ended := by
  simp [value_adopt]

theorem stack_adopt (host snippet : Builder) : (host.adopt snippet).value.stack = host.stack := by
  rw [value_adopt]

/-- Content does not open or close elements of the host. -/
theorem stack_append (host : Builder) (c : Content) (st : Store) :
    (host.append c st).value.stack = host.stack := by
  cases c with
  | empty | text | markup => rfl
  | snippet snippet => exact stack_adopt host snippet
  | slot h =>
    obtain ⟨r, pushed⟩ := exists_pushSlot host h st
    rw [append, pushed, stack_push]

/-- Content comes behind the fragments of the host. -/
theorem exists_append (host : Builder) (c : Content) (st : Store) :
    ∃ more, (host.append c st).value.fragments.toList = host.fragments.toList ++ more := by
  cases c with
  | empty => exact ⟨[], (List.append_nil _).symm⟩
  | text text => exact ⟨_, toList_pushPiece host _⟩
  | markup html => exact ⟨_, toList_pushPiece host _⟩
  | snippet snippet => exact ⟨_, toList_adopt host snippet⟩
  | slot h =>
    obtain ⟨r, pushed⟩ := exists_pushSlot host h st
    rw [append, pushed]
    exact ⟨_, toList_push _ _⟩

theorem log_adopt (host snippet : Builder) :
    (host.adopt snippet).log =
      (if snippet.placeholders.isEmpty then []
        else [.adopting host.name snippet.placeholders.names snippet.name]) ++
        (host.placeholders.merge snippet.placeholders).log := by
  unfold adopt
  split <;> simp

theorem adopt_snapshot (host b : Builder) : host.adopt b.snapshot = host.adopt b := by
  apply Logged.ext
  · simp only [value_adopt, ended_snapshot, placeholders_snapshot]
  · simp only [log_adopt, name_snapshot, placeholders_snapshot]

theorem ended_adopt (host snippet : Builder) :
    (host.adopt snippet).value.ended =
      host.fragments.toList ++ snippet.ended ++ endTags host.stack.owed := by
  simp [ended, toList_adopt, stack_adopt]

/-- What the host had is rendered first, then the snippet, then what the host owes. -/
theorem render_adopt (host snippet : Builder) (st : Store) :
    (host.adopt snippet).value.render st = do
      let before ← ({ host with stack := {} } : Builder).render st
      let embedded ← snippet.render st
      return before ++ embedded ++ Piece.render (host.stack.owed.map .endTag) := by
  have hm := Store.marks_walkSlot st st.depthBound
  have hbare : ({ host with stack := {} } : Builder).ended = host.fragments.toList :=
    List.append_nil _
  apply Logged.ext
  · simp [render, Walk.logged, Walk.html, flatten_eq_walk, ended_adopt, hbare,
      Store.walkFragments_append hm, Store.walkFragments_endTags, String.append_assoc]
  · simp [render, Walk.logged, flatten_eq_walk, ended_adopt, hbare,
      Store.walkFragments_append hm, Store.walkFragments_endTags]

/-- **All endings agree.** A builder that is closed for real, scope by scope, owes nothing and is
rendered as before; its copy is rendered as the builder is; and embedding the copy is embedding the
builder: the host comes to the same, and is rendered as its own fragments, the builder and the end
tags that the host owes. The last two hold in every later store, whatever its slots have come to
hold. -/
theorem endings_agree (b : Builder) :
    (leaveScope^[b.depth] b.close).stack.owed = [] ∧
    (∀ st, (leaveScope^[b.depth] b.close).render st = b.render st) ∧
    (∀ later, b.snapshot.render later = b.render later) ∧
    ∀ (host : Builder) (st : Store),
      host.append (.snippet b.snapshot) st = host.append (.snippet b) st ∧
      host.content (.snippet b.snapshot) st = host.content (.snippet b) st ∧
      (host.append (.snippet b) st).value.stack = host.stack ∧
      ∀ later,
        ((host.append (.snippet b) st).value.render later = do
          let before ← ({ host with stack := {} } : Builder).render later
          let embedded ← b.render later
          return before ++ embedded ++ Piece.render (host.stack.owed.map .endTag)) ∧
        (host.content (.snippet b) st).value.render later =
          (host.append (.snippet b) st).value.render later := by
  refine ⟨?_, ?_, ?_, ?_⟩
  · rw [stack_iterate_leaveScope _ _ (by rw [stack_close]), stack_close]
    simp [depth, TagStack.depth, TagStack.owed, TagStack.impliedEnd]
  · intro st
    have closed : (leaveScope^[b.depth] b.close).ended = b.ended := by
      rw [ended_iterate_leaveScope, ended_close]
    exact render_congr closed st
  · intro later
    exact render_congr (ended_snapshot b) later
  · intro host st
    refine ⟨adopt_snapshot host b, congrArg (close <$> ·) (adopt_snapshot host b),
      stack_adopt host b, ?_⟩
    intro later
    exact ⟨render_adopt host b later, render_congr (ended_close _) later⟩

end Builder

end Hypertext
