import Hypertext.Fragment
import Hypertext.TagStack

/-! # Open elements in finished markup

A row of pieces is read from the left, with the names of the elements that are open: a start tag
opens its element if the element has an end tag to come, and an end tag closes the element that was
opened last. The reading fails at an end tag that does not belong to that element. -/

namespace Hypertext

/-- The element has an end tag. No void element has; one whose end tag may be left out has it if the
element was held open. -/
def StartTag.isClosed (tag : StartTag) : Bool :=
  match ElementKind.ofName tag.name with
  | .void => false
  | .optionalEnd => tag.heldOpen
  | .script | .style | .normal => true

namespace StartTag

/-- Without a scope, an element has the end tag that the next tag implies. -/
theorem isClosed_of_not_heldOpen {tag : StartTag} (h : tag.heldOpen = false) :
    tag.isClosed = (ElementKind.ofName tag.name).requiresEndTag := by
  unfold isClosed
  cases ElementKind.ofName tag.name <;> simp [ElementKind.requiresEndTag, h]

/-- With a scope, every element has an end tag, but a void one. -/
theorem isClosed_of_heldOpen {tag : StartTag} (h : tag.heldOpen = true) :
    tag.isClosed = !(ElementKind.ofName tag.name).isVoid := by
  unfold isClosed
  cases ElementKind.ofName tag.name <;> simp [ElementKind.isVoid, h]

end StartTag

namespace Piece

/-- The elements open behind the piece, innermost first, when `names` are open before it. -/
def openAfter (names : List String) : Piece → Option (List String)
  | startTag tag => some (if tag.isClosed then tag.name :: names else names)
  | endTag name =>
    match names with
    | [] => none
    | n :: names => if n = name then some names else none
  | text _ => some names

/-- The elements open behind a row of pieces. -/
def scan (ps : List Piece) (names : List String) : Option (List String) :=
  ps.foldlM openAfter names

@[simp] theorem scan_nil (names : List String) : scan [] names = some names := rfl

theorem scan_cons (p : Piece) (ps : List Piece) (names : List String) :
    scan (p :: ps) names = (openAfter names p).bind (scan ps) := rfl

theorem scan_append (ps qs : List Piece) (names : List String) :
    scan (ps ++ qs) names = (scan ps names).bind (scan qs) :=
  List.foldlM_append

@[simp] theorem scan_text (html : String) (ps : List Piece) (names : List String) :
    scan (.text html :: ps) names = scan ps names := rfl

theorem scan_startTag (tag : StartTag) (ps : List Piece) (names : List String) :
    scan (.startTag tag :: ps) names =
      scan ps (if tag.isClosed then tag.name :: names else names) := rfl

@[simp] theorem scan_endTag_nil (name : String) (ps : List Piece) :
    scan (.endTag name :: ps) [] = none := rfl

theorem scan_endTag_cons (n name : String) (ps : List Piece) (names : List String) :
    scan (.endTag name :: ps) (n :: names) = if n = name then scan ps names else none := by
  rw [scan_cons, openAfter]
  split <;> rfl

/-- The end tags of all open elements, innermost first, close them. -/
theorem scan_endTags (owed names : List String) :
    scan (owed.map .endTag) (owed ++ names) = some names := by
  induction owed with
  | nil => rfl
  | cons n owed ih =>
    rw [List.map_cons, List.cons_append, scan_endTag_cons, if_pos rfl, ih]

/-! ## What was open before -/

theorem openAfter_append {p : Piece} {names after : List String}
    (h : openAfter names p = some after) (more : List String) :
    openAfter (names ++ more) p = some (after ++ more) := by
  cases p with
  | startTag tag =>
    cases h
    cases hc : tag.isClosed <;> simp [openAfter, hc]
  | endTag name =>
    cases names with
    | nil => cases h
    | cons n names =>
      rw [openAfter] at h
      split at h
      · cases h
        simp [openAfter, *]
      · cases h
  | text html =>
    cases h
    rfl

/-- Elements that are open all the while do not matter. -/
theorem scan_frame {ps : List Piece} {names after : List String} (h : scan ps names = some after)
    (more : List String) : scan ps (names ++ more) = some (after ++ more) := by
  induction ps generalizing names with
  | nil =>
    cases h
    rfl
  | cons p ps ih =>
    rw [scan_cons] at h
    obtain ⟨mid, hp, h⟩ := Option.bind_eq_some_iff.mp h
    rw [scan_cons, openAfter_append hp, Option.bind_some, ih h]

/-- The pieces leave open what they found open, and close nothing of it. -/
def Neutral (ps : List Piece) : Prop :=
  scan ps [] = some []

theorem Neutral.scan {ps : List Piece} (h : Neutral ps) (names : List String) :
    Piece.scan ps names = some names :=
  scan_frame h names

theorem Neutral.append {ps qs : List Piece} (hp : Neutral ps) (hq : Neutral qs) :
    Neutral (ps ++ qs) := by
  rw [Neutral, scan_append, hp, Option.bind_some, hq]

end Piece

end Hypertext
