import Hypertext.Content
import Hypertext.Document.Seed
import Hypertext.Proofs.Rendering.Endings

/-! # Without texts

Two builders differ in nothing but texts if they are the same once the texts are taken out. An
operation on builders without texts is the operation with its texts taken out: no text decides what
becomes of a builder. -/

namespace Hypertext

def AttributeValue.erase : AttributeValue → AttributeValue
  | .text _ => .text ""
  | .flag set => .flag set
  | .absent => .absent

def Attribute.erase (a : Attribute) : Attribute :=
  { a with value := a.value.erase }

def Attributes.erase (as : Attributes) : Attributes :=
  ⟨as.entries.map Attribute.erase⟩

def StartTag.erase (tag : StartTag) : StartTag :=
  { tag with attributes := tag.attributes.erase }

/-- The markup without text; the doctype is the only markup that is none. -/
def eraseMarkup (html : String) : String :=
  if Piece.text html = doctype then html else ""

def Piece.erase : Piece → Piece
  | .startTag tag => .startTag tag.erase
  | .endTag name => .endTag name
  | .text html => .text (eraseMarkup html)

def Fragment.erase : Fragment → Fragment
  | .piece p => .piece p.erase
  | .slot h => .slot h

def Builder.erase (b : Builder) : Builder :=
  { b with fragments := b.fragments.map Fragment.erase }

/-! ## Attributes -/

theorem Attribute.html_erase_eq_empty (a : Attribute) : a.erase.html = "" ↔ a.html = "" := by
  obtain ⟨identifier, value⟩ := a
  cases value with
  | text value => simp [erase, AttributeValue.erase, html, ← String.toList_inj]
  | flag set => rfl
  | absent => rfl

namespace Attributes

@[simp] theorem erase_append (as bs : Attributes) :
    (as ++ bs).erase = as.erase ++ bs.erase :=
  congrArg Attributes.mk List.map_append

theorem html_eq_empty (as : Attributes) : as.html = "" ↔ ∀ a ∈ as.entries, a.html = "" := by
  rw [html, ← String.toList_inj, String.toList_join]
  simp

/-- Whether there is anything to give does not depend on texts. -/
theorem html_erase_eq_empty (as : Attributes) : as.erase.html = "" ↔ as.html = "" := by
  simp [html_eq_empty, erase, Attribute.html_erase_eq_empty]

end Attributes

/-! ## Builders -/

namespace Builder

variable {b : Builder}

@[simp] theorem name_erase (b : Builder) : b.erase.name = b.name := rfl

@[simp] theorem stack_erase (b : Builder) : b.erase.stack = b.stack := rfl

@[simp] theorem placeholders_erase (b : Builder) : b.erase.placeholders = b.placeholders := rfl

@[simp] theorem toList_erase (b : Builder) :
    b.erase.fragments.toList = b.fragments.toList.map Fragment.erase := by
  simp [erase]

@[simp] theorem erase_new (name : String) : ({ name } : Builder).erase = { name } := by
  simp [erase]

@[simp] theorem erase_reset (b : Builder) : b.reset.erase = b.erase.reset :=
  erase_new b.name

theorem erase_push (b : Builder) (f : Fragment) : (b.push f).erase = b.erase.push f.erase := by
  simp [erase, push]

theorem erase_pushPiece (b : Builder) (p : Piece) :
    (b.pushPiece p).erase = b.erase.pushPiece p.erase :=
  erase_push b (.piece p)

theorem erase_endTags (names : List String) :
    (endTags names).map Fragment.erase = endTags names := by
  simp [endTags, Fragment.erase, Piece.erase]

theorem erase_pushEnds (b : Builder) (names : List String) :
    (b.pushEnds names).erase = b.erase.pushEnds names := by
  induction names generalizing b with
  | nil => rfl
  | cons n names ih => rw [pushEnds_cons, ih, erase_pushPiece, pushEnds_cons, Piece.erase]

theorem erase_close (b : Builder) : b.close.erase = b.erase.close :=
  erase_pushEnds _ _

theorem erase_tag (b : Builder) (identifier : String) :
    (b.tag identifier).erase = b.erase.tag identifier := by
  have start : (b.close.pushPiece (.startTag { name := htmlName identifier })).erase =
      b.erase.close.pushPiece (.startTag { name := htmlName identifier }) := by
    rw [erase_pushPiece, erase_close]
    rfl
  have size : b.close.fragments.size = b.erase.close.fragments.size := by
    rw [← erase_close]
    simp [erase]
  rw [tag, tag, ← start, size]
  rfl

theorem erase_replaceTag (b : Builder) (element : OpenTag) (tag : StartTag) :
    (b.replaceTag element tag).erase = b.erase.replaceTag element tag.erase := by
  simp [erase, replaceTag, Array.map_setIfInBounds, Fragment.erase, Piece.erase]

theorem pendingTag?_erase (b : Builder) :
    b.erase.pendingTag? = b.pendingTag?.map fun (element, tag) => (element, tag.erase) := by
  have at_erase (i : Nat) : b.erase.startTagAt? i = (b.startTagAt? i).map StartTag.erase := by
    simp only [startTagAt?, erase, Array.getElem?_map]
    cases b.fragments[i]? with
    | none => rfl
    | some f =>
      cases f with
      | slot h => rfl
      | piece p => cases p <;> rfl
  cases hp : b.stack.pending with
  | none => simp [pendingTag?, pending, hp]
  | some element => cases ht : b.startTagAt? element.position <;>
      simp [pendingTag?, pending, hp, at_erase, ht]

theorem erase_giveAttributes (b : Builder) (given : Attributes) :
    (b.giveAttributes given).value.erase = (b.erase.giveAttributes given.erase).value := by
  unfold giveAttributes
  by_cases he : given.html = ""
  · rw [if_pos he, if_pos (given.html_erase_eq_empty.mpr he)]
  · rw [if_neg he, if_neg (mt given.html_erase_eq_empty.mp he), pendingTag?_erase]
    cases b.pendingTag? with
    | none => rfl
    | some found =>
      obtain ⟨element, tag⟩ := found
      simp [erase_replaceTag, StartTag.erase]

theorem erase_adopt (b snippet : Builder) :
    (b.adopt snippet).value.erase = (b.erase.adopt snippet.erase).value := by
  rw [value_adopt, value_adopt]
  simp [erase, ended, erase_endTags]

theorem erase_snapshot (b : Builder) : b.snapshot.erase = b.erase.snapshot := by
  rw [snapshot, snapshot, stack_erase, ← erase_pushEnds]
  rfl

theorem erase_enterScope (b : Builder) : b.enterScope.value.erase = b.erase.enterScope.value := by
  unfold enterScope
  rw [pendingTag?_erase]
  cases b.pendingTag? with
  | none => rfl
  | some found =>
    obtain ⟨element, tag⟩ := found
    have held := erase_replaceTag b element { tag with heldOpen := true }
    simp only [Option.map_some]
    exact congrArg (fun c : Builder => { c with stack := b.stack.enter }) held

theorem erase_leaveScope (b : Builder) : b.leaveScope.erase = b.erase.leaveScope := by
  cases h : b.stack.scopes with
  | nil => rw [leaveScope_of_nil h, leaveScope_of_nil (by exact h), erase_close]
  | cons scope scopes =>
    rw [leaveScope_of_cons h, leaveScope_of_cons (by exact h), erase_pushEnds, ← erase_close]
    rfl

end Builder

end Hypertext
