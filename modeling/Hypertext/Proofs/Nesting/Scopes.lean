import Hypertext.Proofs.Nesting.Builders
import Hypertext.Proofs.Slots.Scoped

/-! # Inside a scope

What is done to a builder between the opening and the end of a scope only adds to it. Behind the
fragments of before, and as long as the inner scopes are left, there is what leaves nothing open,
but for a pending element. -/

namespace Hypertext

open Piece (Neutral)

/-- An element with what stands in it and the end tag that it has, if it has one. -/
theorem Piece.neutral_element (tag : StartTag) {ps : List Piece} (h : Neutral ps) :
    Neutral (.startTag tag :: ps ++ (if tag.isClosed then [.endTag tag.name] else [])) := by
  rw [Neutral, List.cons_append, scan_startTag, scan_append, h.scan, Option.bind_some]
  split
  · rw [scan_endTag_cons, if_pos rfl, scan_nil]
  · rfl

/-- What the output has of a fragment: the markup of a piece, or the slot. -/
def Fragment.written : Fragment → String ⊕ Handle
  | .piece p => .inl p.html
  | .slot h => .inr h

namespace Builder

/-- Behind the fragments of `base`, the builder has what leaves nothing open, but for a pending
element, and its scopes are those given. -/
inductive Grows (base : List Fragment) (scopes : List Scope) (b : Builder) : Prop
  | settled (body : List Fragment) (hp : b.stack.pending = none) (hs : b.stack.scopes = scopes)
      (hf : b.fragments.toList = base ++ body)
      (hb : Neutral (ownPieces body))
  | pending (element : OpenTag) (tag : StartTag) (before after : List Fragment)
      (hp : b.stack.pending = some element) (hs : b.stack.scopes = scopes)
      (hf : b.fragments.toList = base ++ before ++ .piece (.startTag tag) :: after)
      (hpos : element.position = (base ++ before).length)
      (hname : element.name = tag.name)
      (hheld : tag.heldOpen = false)
      (hb : Neutral (ownPieces before))
      (ha : Neutral (ownPieces after))

namespace Grows

variable {base : List Fragment} {scopes : List Scope} {b c : Builder}

theorem scopes_eq (h : b.Grows base scopes) : b.stack.scopes = scopes := by
  cases h <;> assumption

/-- Fragments that leave nothing open can come behind. -/
theorem extend {more : List Fragment} (h : b.Grows base scopes) (hst : c.stack = b.stack)
    (hf : c.fragments.toList = b.fragments.toList ++ more) (hm : Neutral (ownPieces more)) :
    c.Grows base scopes := by
  cases h with
  | settled body hp hs hfb hb =>
    refine .settled (body ++ more) (by rw [hst, hp]) (by rw [hst, hs]) ?_ ?_
    · rw [hf, hfb, List.append_assoc]
    · rw [ownPieces_append]
      exact hb.append hm
  | pending element tag before after hp hs hfb hpos hname hheld hb ha =>
    refine .pending element tag before (after ++ more) (by rw [hst, hp]) (by rw [hst, hs]) ?_ hpos
      hname hheld hb ?_
    · rw [hf, hfb, List.append_assoc, List.cons_append]
    · rw [ownPieces_append]
      exact ha.append hm

/-- Once the pending element is closed, nothing is open behind `base`. -/
theorem settle (h : b.Grows base scopes) :
    ∃ body, b.close.fragments.toList = base ++ body ∧ Neutral (ownPieces body) := by
  cases h with
  | settled body hp _ hf hb =>
    refine ⟨body, ?_, hb⟩
    rw [toList_close, hf, TagStack.impliedEnd, hp]
    simp
  | pending element tag before after hp _ hf _ hname hheld hb ha =>
    refine ⟨before ++ (.piece (.startTag tag) :: after ++ endTags b.stack.impliedEnd.toList), ?_,
      ?_⟩
    · rw [toList_close, hf]
      simp
    · have ends : (b.stack.impliedEnd.toList).map Piece.endTag =
          if tag.isClosed then [.endTag tag.name] else [] := by
        simp only [TagStack.impliedEnd, hp, Option.bind_some, OpenTag.kind, hname,
          StartTag.isClosed_of_not_heldOpen hheld]
        split <;> rfl
      rw [ownPieces_append, ownPieces_append, ownPieces_piece, ownPieces_endTags, ends]
      exact hb.append (Piece.neutral_element tag ha)

theorem close (h : b.Grows base scopes) : b.close.Grows base scopes := by
  obtain ⟨body, hf, hb⟩ := h.settle
  exact .settled body (by rw [stack_close]) (by rw [stack_close, h.scopes_eq]) hf hb

theorem tag (h : b.Grows base scopes) (identifier : String) :
    (b.tag identifier).Grows base scopes := by
  obtain ⟨body, hf, hb⟩ := h.settle
  refine .pending ⟨htmlName identifier, b.close.fragments.size⟩ { name := htmlName identifier } body
    [] rfl ?_ ?_ ?_ rfl rfl hb rfl
  · rw [← h.scopes_eq]
    simp [Builder.tag]
  · rw [← hf]
    simp [Builder.tag]
  · rw [← hf]
    exact Array.length_toList.symm

theorem giveAttributes (h : b.Grows base scopes) (given : Attributes) :
    (b.giveAttributes given).value.Grows base scopes := by
  unfold Builder.giveAttributes
  split
  · exact h
  · cases h with
    | settled body hp hs hf hb =>
      simp only [Builder.pendingTag?, Builder.pending, hp, Option.bind_none]
      exact .settled body hp hs hf hb
    | pending element tag before after hp hs hf hpos hname hheld hb ha =>
      have hat := startTagAt?_of_toList hf
      simp only [Builder.pendingTag?, Builder.pending, hp, Option.bind_some, hpos, hat,
        Option.map_some]
      exact .pending element { tag with attributes := tag.attributes ++ given } before after hp hs
        (toList_replaceTag hf hpos _) hpos hname hheld hb ha

theorem pushText (h : b.Grows base scopes) (text : String) :
    (b.pushText text).Grows base scopes :=
  h.extend rfl (toList_pushPiece b _) rfl

theorem append {content : Content} (h : b.Grows base scopes) (hc : content.Made .any)
    (st : Store) : (b.append content st).value.Grows base scopes := by
  cases content with
  | empty => exact h
  | text text => exact h.pushText text
  | markup html => exact h.extend rfl (toList_pushPiece _ _) rfl
  | snippet snippet =>
    exact h.extend (stack_adopt b snippet) (toList_adopt b snippet) hc.nests.neutral_ended
  | slot handle =>
    obtain ⟨r, pushed⟩ := exists_pushSlot b handle st
    rw [Builder.append, pushed]
    exact h.extend rfl (toList_push _ _) rfl

theorem appendAll {contents : List Content} (h : b.Grows base scopes)
    (hc : ∀ c ∈ contents, c.Made .any) (st : Store) :
    (contents.foldlM (fun (b : Builder) c => b.append c st) b).value.Grows base scopes :=
  Logged.foldlM_induction (R := Grows base scopes) h fun c hm _ h => h.append (hc c hm) st

theorem element (h : b.Grows base scopes) (identifier text : String) :
    (b.element identifier text).Grows base scopes := by
  have written := (h.tag identifier).pushText text
  exact written.close

theorem push_slot (h : b.Grows base scopes) (r : Registry) (handle : Handle) :
    ({ b with placeholders := r }.push (.slot handle)).Grows base scopes :=
  h.extend rfl (toList_push _ _) rfl

end Grows

/-! ## Scopes -/

/-- The opening of a scope is not seen in the output. -/
theorem written_enterScope (b : Builder) :
    b.enterScope.value.fragments.toList.map Fragment.written =
      b.fragments.toList.map Fragment.written := by
  unfold Builder.enterScope
  cases hp : b.pendingTag? with
  | none => rfl
  | some found =>
    obtain ⟨element, tag⟩ := found
    have hat := startTagAt?_of_pendingTag? hp
    unfold startTagAt? at hat
    split at hat
    · rename_i hold
      cases hat
      have same : (b.fragments.toList.map Fragment.written)[element.position]? =
          some (Fragment.written (.piece (.startTag { tag with heldOpen := true }))) := by
        rw [List.getElem?_map, Array.getElem?_toList, hold]
        rfl
      obtain ⟨hlt, hget⟩ := List.getElem?_eq_some_iff.mp same
      simp only [replaceTag, Array.toList_setIfInBounds, List.map_set]
      rw [← hget, List.set_getElem_self]
    · cases hat

/-- A scope takes over the pending element, whose start tag is written as before. What comes behind
leaves nothing open once the scope's end tag has come. -/
theorem Grows.enterScope {base : List Fragment} {scopes : List Scope} {b : Builder}
    (h : b.Grows base scopes) :
    b.enterScope.value.stack = { scopes := b.stack.scopeOfPending :: scopes } ∧
    ∃ opened, b.enterScope.value.fragments.toList = base ++ opened ∧
      ∀ body, Neutral (ownPieces body) →
        Neutral (ownPieces (opened ++ body ++ endTags b.stack.scopeOfPending.owes.toList)) := by
  have stack : b.enterScope.value.stack = { scopes := b.stack.scopeOfPending :: scopes } := by
    rw [← h.scopes_eq]
    rfl
  refine ⟨stack, ?_⟩
  unfold Builder.enterScope
  cases h with
  | settled opened hp hs hf hb =>
    simp only [Builder.pendingTag?, Builder.pending, hp, Option.bind_none,
      TagStack.scopeOfPending]
    refine ⟨opened, hf, fun body hbody => ?_⟩
    simpa using hb.append hbody
  | pending element tag before after hp hs hf hpos hname hheld hb ha =>
    have hat := startTagAt?_of_toList hf
    simp only [Builder.pendingTag?, Builder.pending, hp, Option.bind_some, hpos, hat,
      Option.map_some, TagStack.scopeOfPending]
    refine ⟨before ++ .piece (.startTag { tag with heldOpen := true }) :: after, ?_, ?_⟩
    · rw [toList_replaceTag hf hpos, List.append_assoc]
    · intro body hbody
      have held : ({ tag with heldOpen := true } : StartTag).isClosed = !element.kind.isVoid := by
        rw [OpenTag.kind, hname]
        exact StartTag.isClosed_of_heldOpen rfl
      have ends : ((if element.kind.isVoid then none else some element.name).toList).map
          Piece.endTag = if ({ tag with heldOpen := true } : StartTag).isClosed
            then [.endTag tag.name] else [] := by
        rw [held, hname]
        cases element.kind.isVoid <;> rfl
      have inside := Piece.neutral_element { tag with heldOpen := true } (ha.append hbody)
      rw [← ends] at inside
      simpa using hb.append inside

/-- The end of the scope leaves the scopes around it, and puts the end tag that the scope owes
behind everything. -/
theorem Grows.leaveScope {base : List Fragment} {scope : Scope} {scopes : List Scope} {b : Builder}
    (h : b.Grows base (scope :: scopes)) :
    b.leaveScope.stack = { scopes } ∧
    ∃ body, b.leaveScope.fragments.toList = base ++ body ++ endTags scope.owes.toList ∧
      Neutral (ownPieces body) := by
  obtain ⟨body, hf, hb⟩ := h.settle
  have hs := h.scopes_eq
  refine ⟨by rw [stack_leaveScope, hs, List.tail_cons], body, ?_, hb⟩
  rw [leaveScope_of_cons hs, toList_pushEnds]
  exact congrArg (· ++ _) hf

/-- A scope with what was done inside it only adds to the builder. -/
theorem Grows.nest {base : List Fragment} {scopes : List Scope} {b c : Builder}
    (h : b.Grows base scopes)
    (hc : c.Grows b.enterScope.value.fragments.toList b.enterScope.value.stack.scopes) :
    c.leaveScope.Grows base scopes := by
  obtain ⟨stack, opened, hf, hopened⟩ := h.enterScope
  rw [stack, hf] at hc
  obtain ⟨stack', body, hf', hbody⟩ := hc.leaveScope
  refine .settled (opened ++ body ++ endTags b.stack.scopeOfPending.owes.toList)
    (by rw [stack']) (by rw [stack']) ?_ (hopened body hbody)
  rw [hf']
  simp

/-- At its start, a scope has only what was there. -/
theorem grows_enterScope (b : Builder) :
    b.enterScope.value.Grows b.enterScope.value.fragments.toList b.enterScope.value.stack.scopes :=
  .settled [] rfl rfl (List.append_nil _).symm rfl

end Builder

/-! ## Calls -/

/-- The call opens no scope that it leaves open, and it does not take away what is there. -/
def BuilderCall.KeepsScopes {γ α τ : Type} : BuilderCall γ α τ → Prop
  | .enterScope | .reset => False
  | _ => True

theorem BuilderCall.grows_run {base : List Fragment} {scopes : List Scope} {b : Builder}
    {call : BuilderCall Content AttributeValue String} (hk : call.KeepsScopes)
    (hc : call.Made .any) (h : b.Grows base scopes) (st : Store) :
    (call.run b st).state.1.Grows base scopes := by
  cases call with
  | tag identifier => exact h.tag identifier
  | attributes given => exact h.giveAttributes _
  | content c => exact (h.append hc st).close
  | contents cs => exact (h.appendAll hc st).close
  | append c => exact h.append hc st
  | close => exact h.close
  | script code => exact h.element "script" code
  | style rules => exact h.element "style" rules
  | comment text => exact h.extend rfl (Builder.toList_pushPiece _ _) rfl
  | place name =>
    rcases b.place_cases name st with ⟨e, _, hrun⟩ | ⟨d, _, hrun⟩
    · rwa [run, hrun]
    · rw [run, hrun]
      exact h.push_slot _ _
  | placeWith name c =>
    rcases b.placeWith_cases name c st with ⟨e, _, hrun⟩ | ⟨d, _, _, hbuilder | hbuilder⟩
    · rwa [run, hrun]
    · rw [run, hbuilder]
      exact h.extend rfl (List.append_nil _).symm rfl
    · rw [run, hbuilder]
      exact h.push_slot _ _
  | set name c => exact h
  | clear name => exact h
  | enterScope | reset => exact hk.elim

end Hypertext
