import Hypertext.Proofs.Nesting.Scan
import Hypertext.Proofs.Rendering.Endings
import Hypertext.Proofs.Builder.Made

/-! # Builders leave open what they owe

Whatever was done to a builder, the elements that its fragments leave open are those whose end tags
it owes. The pending element is the one exception to look at: its start tag may still change, and
whether it is open depends on what comes next. -/

namespace Hypertext

open Piece (scan Neutral)

/-- The pieces among fragments. -/
def ownPieces (fs : List Fragment) : List Piece :=
  fs.filterMap fun
    | .piece p => some p
    | .slot _ => none

@[simp] theorem ownPieces_nil : ownPieces [] = [] := rfl

@[simp] theorem ownPieces_piece (p : Piece) (fs : List Fragment) :
    ownPieces (.piece p :: fs) = p :: ownPieces fs := rfl

@[simp] theorem ownPieces_slot (h : Handle) (fs : List Fragment) :
    ownPieces (.slot h :: fs) = ownPieces fs := rfl

@[simp] theorem ownPieces_append (fs gs : List Fragment) :
    ownPieces (fs ++ gs) = ownPieces fs ++ ownPieces gs :=
  List.filterMap_append

@[simp] theorem ownPieces_endTags (names : List String) :
    ownPieces (Builder.endTags names) = names.map .endTag := by
  induction names with
  | nil => rfl
  | cons n names ih => rw [Builder.endTags_cons, ownPieces_piece, ih, List.map_cons]

namespace Builder

/-- The fragments leave open the elements of the scopes. What stands behind the start tag of the
pending element leaves nothing open, so only that element comes to them. -/
inductive Nests (b : Builder) : Prop
  | settled (hp : b.stack.pending = none)
      (hs : scan (ownPieces b.fragments.toList) [] = some (b.stack.scopes.filterMap Scope.owes))
  | pending (element : OpenTag) (tag : StartTag) (before after : List Fragment)
      (hp : b.stack.pending = some element)
      (hf : b.fragments.toList = before ++ .piece (.startTag tag) :: after)
      (hpos : element.position = before.length)
      (hname : element.name = tag.name)
      (hheld : tag.heldOpen = false)
      (hs : scan (ownPieces before) [] = some (b.stack.scopes.filterMap Scope.owes))
      (ha : Neutral (ownPieces after))

variable {b : Builder}

/-- What the fragments leave open is what the builder owes. -/
theorem Nests.scan_eq (h : b.Nests) :
    scan (ownPieces b.fragments.toList) [] = some b.stack.owed := by
  cases h with
  | settled hp hs => simpa [TagStack.owed, TagStack.impliedEnd, hp] using hs
  | pending element tag before after hp hf hpos hname hheld hs ha =>
    rw [hf, ownPieces_append, ownPieces_piece, Piece.scan_append, hs, Option.bind_some,
      Piece.scan_startTag, ha.scan]
    simp only [TagStack.owed, TagStack.impliedEnd, hp, Option.bind_some, OpenTag.kind, hname,
      StartTag.isClosed_of_not_heldOpen hheld]
    cases (ElementKind.ofName tag.name).requiresEndTag <;> rfl

/-- With the end tags that the builder owes, the fragments leave nothing open. -/
theorem Nests.neutral_ended (h : b.Nests) : Neutral (ownPieces b.ended) := by
  have ends := Piece.scan_endTags b.stack.owed []
  rw [List.append_nil] at ends
  rw [Neutral, ended, ownPieces_append, Piece.scan_append, h.scan_eq, Option.bind_some,
    ownPieces_endTags, ends]

/-! ## Operations -/

/-- Fragments that leave nothing open can come behind. -/
theorem Nests.extend {c : Builder} {more : List Fragment} (h : b.Nests)
    (hst : c.stack = b.stack) (hf : c.fragments.toList = b.fragments.toList ++ more)
    (hm : Neutral (ownPieces more)) : c.Nests := by
  cases h with
  | settled hp hs =>
    refine .settled (by rw [hst, hp]) ?_
    rw [hf, ownPieces_append, Piece.scan_append, hs, Option.bind_some, hm.scan, hst]
  | pending element tag before after hp hfb hpos hname hheld hs ha =>
    refine .pending element tag before (after ++ more) (by rw [hst, hp]) ?_ hpos hname hheld
      (by rw [hst, hs]) ?_
    · rw [hf, hfb, List.append_assoc, List.cons_append]
    · rw [ownPieces_append]
      exact ha.append hm

/-- Some of the end tags that the builder owes are written, the others stay owed. -/
theorem Nests.writeEnds {c : Builder} {written : List String} (h : b.Nests)
    (hp : c.stack.pending = none)
    (hf : c.fragments.toList = b.fragments.toList ++ endTags written)
    (ho : b.stack.owed = written ++ c.stack.scopes.filterMap Scope.owes) : c.Nests := by
  refine .settled hp ?_
  rw [hf, ownPieces_append, Piece.scan_append, h.scan_eq, Option.bind_some, ownPieces_endTags, ho,
    Piece.scan_endTags]

theorem Nests.close (h : b.Nests) : b.close.Nests :=
  h.writeEnds (by simp) (toList_close b) (by simp [TagStack.owed])

theorem Nests.leaveScope (h : b.Nests) : b.leaveScope.Nests := by
  refine h.writeEnds (by rw [stack_leaveScope]) (toList_leaveScope b) ?_
  rw [stack_leaveScope, TagStack.owed]
  cases b.stack.scopes with
  | nil => simp
  | cons scope scopes => cases ho : scope.owes <;> simp [ho]

theorem Nests.snapshot (h : b.Nests) : b.snapshot.Nests :=
  h.writeEnds rfl (toList_pushEnds b b.stack.owed) (by simp [Builder.snapshot])

theorem Nests.tag (h : b.Nests) (identifier : String) : (b.tag identifier).Nests := by
  have hc := h.close
  refine .pending ⟨htmlName identifier, b.close.fragments.size⟩ { name := htmlName identifier }
    b.close.fragments.toList [] rfl ?_ Array.length_toList.symm rfl rfl ?_ rfl
  · simp [Builder.tag]
  · simpa [Builder.tag, TagStack.owed, TagStack.impliedEnd] using hc.scan_eq

/-! ## The pending element's start tag -/

theorem startTagAt?_of_toList {tag : StartTag} {before after : List Fragment}
    (hf : b.fragments.toList = before ++ .piece (.startTag tag) :: after) :
    b.startTagAt? before.length = some tag := by
  simp [startTagAt?, ← Array.getElem?_toList, hf]

theorem toList_replaceTag {element : OpenTag} {f : Fragment} {before after : List Fragment}
    (hf : b.fragments.toList = before ++ f :: after) (hpos : element.position = before.length)
    (tag : StartTag) :
    (b.replaceTag element tag).fragments.toList = before ++ .piece (.startTag tag) :: after := by
  simp [replaceTag, hf, hpos]

theorem Nests.giveAttributes (h : b.Nests) (given : Attributes) :
    (b.giveAttributes given).value.Nests := by
  unfold Builder.giveAttributes
  split
  · exact h
  · cases h with
    | settled hp hs =>
      simp only [Builder.pendingTag?, Builder.pending, hp, Option.bind_none]
      exact .settled hp hs
    | pending element tag before after hp hf hpos hname hheld hs ha =>
      have hat := startTagAt?_of_toList hf
      simp only [Builder.pendingTag?, Builder.pending, hp, Option.bind_some, hpos, hat,
        Option.map_some]
      exact .pending element { tag with attributes := tag.attributes ++ given } before after hp
        (toList_replaceTag hf hpos _) hpos hname hheld hs ha

/-- The element that a scope holds open becomes an element that the scope owes. -/
theorem Nests.enterScope (h : b.Nests) : b.enterScope.value.Nests := by
  unfold Builder.enterScope
  cases h with
  | settled hp hs =>
    simp only [Builder.pendingTag?, Builder.pending, hp, Option.bind_none]
    exact .settled rfl (by simpa [TagStack.enter, TagStack.scopeOfPending, hp] using hs)
  | pending element tag before after hp hf hpos hname hheld hs ha =>
    have hat := startTagAt?_of_toList hf
    simp only [Builder.pendingTag?, Builder.pending, hp, Option.bind_some, hpos, hat,
      Option.map_some]
    refine .settled rfl ?_
    have held : ({ tag with heldOpen := true } : StartTag).isClosed =
        !(ElementKind.ofName tag.name).isVoid := StartTag.isClosed_of_heldOpen rfl
    rw [toList_replaceTag hf hpos, ownPieces_append, ownPieces_piece, Piece.scan_append, hs,
      Option.bind_some, Piece.scan_startTag, ha.scan, held]
    simp only [TagStack.enter, TagStack.scopeOfPending, hp, Option.bind_some, OpenTag.kind, hname]
    cases hv : (ElementKind.ofName tag.name).isVoid <;> simp

/-- Every operation keeps it that the fragments leave open what the builder owes. -/
theorem Made.nests {P : Policy} (h : b.Made P) : b.Nests := by
  induction h with
  | new name => exact .settled rfl rfl
  | @tag b identifier _ _ ih => exact ih.tag identifier
  | giveAttributes _ _ ih => exact ih.giveAttributes _
  | pushText text _ ih => exact ih.extend rfl (toList_pushPiece _ _) rfl
  | pushMarkup _ _ ih => exact ih.extend rfl (toList_pushPiece _ _) rfl
  | @adopt b snippet _ _ ih ihs =>
    exact ih.extend (stack_adopt b snippet) (toList_adopt b snippet) ihs.neutral_ended
  | pushSlot h _ ih => exact ih.extend rfl (toList_push _ _) rfl
  | withPlaceholders r _ ih => exact ih.extend rfl (List.append_nil _).symm rfl
  | close _ ih => exact ih.close
  | enterScope _ ih => exact ih.enterScope
  | leaveScope _ ih => exact ih.leaveScope
  | snapshot _ ih => exact ih.snapshot

end Builder

end Hypertext
