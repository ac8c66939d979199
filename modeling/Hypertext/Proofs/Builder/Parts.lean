import Hypertext.Session.Call

/-! # The parts of a builder

What the steps that every operation is made of do to a builder's fragments, and which of its parts
they leave as they are. An operation that may be refused, or that goes two ways, has its cases here.
-/

namespace Hypertext.Builder

variable {b : Builder}

@[simp] theorem name_push (b : Builder) (f : Fragment) : (b.push f).name = b.name := rfl

@[simp] theorem placeholders_push (b : Builder) (f : Fragment) :
    (b.push f).placeholders = b.placeholders := rfl

@[simp] theorem stack_push (b : Builder) (f : Fragment) : (b.push f).stack = b.stack := rfl

@[simp] theorem toList_push (b : Builder) (f : Fragment) :
    (b.push f).fragments.toList = b.fragments.toList ++ [f] := by
  simp [push]

@[simp] theorem name_pushPiece (b : Builder) (p : Piece) : (b.pushPiece p).name = b.name := rfl

@[simp] theorem placeholders_pushPiece (b : Builder) (p : Piece) :
    (b.pushPiece p).placeholders = b.placeholders := rfl

@[simp] theorem stack_pushPiece (b : Builder) (p : Piece) : (b.pushPiece p).stack = b.stack := rfl

@[simp] theorem toList_pushPiece (b : Builder) (p : Piece) :
    (b.pushPiece p).fragments.toList = b.fragments.toList ++ [.piece p] :=
  toList_push b _

/-! ## Attributes

A start tag among the fragments is patched where it stands: what is written into it comes before the
character that ends it. -/

/-- The opening tag with the text in it, if it is one. -/
def extendOpeningTag (tag text : String) : Option String :=
  let cs := tag.toList
  if cs.head? = some '<' ∧ cs.getLast? = some '>' then
    some (String.ofList (cs.take (cs.length - 1) ++ text.toList ++ cs.drop (cs.length - 1)))
  else none

/-- Attributes written into a start tag stand behind those that it has. -/
theorem extendOpeningTag_html (tag : StartTag) (given : Attributes) :
    extendOpeningTag tag.html given.html =
      some { tag with attributes := tag.attributes ++ given }.html := by
  have shape : tag.html.toList =
      ('<' :: (tag.name.toList ++ tag.attributes.html.toList)) ++ ['>'] := by
    simp [StartTag.html]
  have length : tag.html.toList.length - 1 =
      ('<' :: (tag.name.toList ++ tag.attributes.html.toList)).length := by
    rw [shape, List.length_append, List.length_singleton, Nat.add_sub_cancel]
  have opening : tag.html.toList.head? = some '<' ∧ tag.html.toList.getLast? = some '>' := by
    rw [shape]
    exact ⟨rfl, List.getLast?_concat⟩
  rw [extendOpeningTag, if_pos opening, length, shape, List.take_left, List.drop_left]
  refine congrArg some (String.toList_inj.mp ?_)
  simp [StartTag.html]

/-- Attributes that show are written into the start tag of the pending element. -/
theorem giveAttributes_extends {element : OpenTag} {tag : StartTag} {given : Attributes}
    (h : b.pendingTag? = some (element, tag)) (hg : given.html ≠ "") :
    ∃ extended : StartTag, extendOpeningTag tag.html given.html = some extended.html ∧
      b.giveAttributes given = ⟨b.replaceTag element extended, []⟩ := by
  refine ⟨_, extendOpeningTag_html tag given, ?_⟩
  rw [giveAttributes, if_neg hg, h]

/-! ## End tags -/

/-- The end tags of the names, as fragments. -/
def endTags (names : List String) : List Fragment :=
  names.map fun name => .piece (.endTag name)

@[simp] theorem endTags_nil : endTags [] = [] := rfl

@[simp] theorem endTags_cons (name : String) (names : List String) :
    endTags (name :: names) = .piece (.endTag name) :: endTags names := rfl

@[simp] theorem endTags_append (names more : List String) :
    endTags (names ++ more) = endTags names ++ endTags more :=
  List.map_append

@[simp] theorem pushEnds_nil (b : Builder) : b.pushEnds [] = b := rfl

@[simp] theorem pushEnds_cons (b : Builder) (name : String) (names : List String) :
    b.pushEnds (name :: names) = (b.pushPiece (.endTag name)).pushEnds names := rfl

/-- Only the fragments grow. -/
theorem pushEnds_eq (b : Builder) (names : List String) :
    b.pushEnds names =
      { b with fragments := b.fragments ++ (endTags names).toArray } := by
  induction names generalizing b with
  | nil => simp
  | cons n names ih =>
    rw [pushEnds_cons, ih]
    simp [pushPiece, push]

@[simp] theorem name_pushEnds (b : Builder) (names : List String) :
    (b.pushEnds names).name = b.name := by
  rw [pushEnds_eq]

@[simp] theorem placeholders_pushEnds (b : Builder) (names : List String) :
    (b.pushEnds names).placeholders = b.placeholders := by
  rw [pushEnds_eq]

@[simp] theorem stack_pushEnds (b : Builder) (names : List String) :
    (b.pushEnds names).stack = b.stack := by
  rw [pushEnds_eq]

@[simp] theorem toList_pushEnds (b : Builder) (names : List String) :
    (b.pushEnds names).fragments.toList = b.fragments.toList ++ endTags names := by
  simp [pushEnds_eq]

/-! ## Closing -/

@[simp] theorem name_close (b : Builder) : b.close.name = b.name := by
  simp [close]

@[simp] theorem placeholders_close (b : Builder) : b.close.placeholders = b.placeholders := by
  simp [close]

@[simp] theorem stack_close (b : Builder) : b.close.stack = { b.stack with pending := none } := by
  simp [close]

@[simp] theorem toList_close (b : Builder) :
    b.close.fragments.toList = b.fragments.toList ++ endTags b.stack.impliedEnd.toList := by
  simp [close]

theorem toList_tag (b : Builder) (identifier : String) :
    (b.tag identifier).fragments.toList =
      b.fragments.toList ++ (endTags b.stack.impliedEnd.toList ++
        [.piece (.startTag { name := htmlName identifier })]) := by
  simp [tag]

/-! ## Scopes -/

theorem leaveScope_of_nil (h : b.stack.scopes = []) : b.leaveScope = b.close := by
  simp only [leaveScope, stack_close, h]

theorem leaveScope_of_cons {scope : Scope} {scopes : List Scope}
    (h : b.stack.scopes = scope :: scopes) :
    b.leaveScope = { b.close with stack.scopes := scopes }.pushEnds scope.owes.toList := by
  simp only [leaveScope, stack_close, h]

theorem stack_leaveScope (b : Builder) :
    b.leaveScope.stack = { scopes := b.stack.scopes.tail } := by
  cases h : b.stack.scopes with
  | nil => simp only [leaveScope_of_nil h, stack_close, h, List.tail_nil]
  | cons scope scopes =>
    simp only [leaveScope_of_cons h, stack_pushEnds, stack_close, List.tail_cons]

theorem toList_leaveScope (b : Builder) :
    b.leaveScope.fragments.toList = b.fragments.toList ++
      endTags (b.stack.impliedEnd.toList ++ (b.stack.scopes.head?.bind Scope.owes).toList) := by
  cases h : b.stack.scopes with
  | nil => simp [leaveScope_of_nil h]
  | cons scope scopes => simp [leaveScope_of_cons h]

/-! ## Handles and placeholders -/

/-- A handle comes behind the fragments, and of the rest only the placeholders change. -/
theorem exists_pushSlot (b : Builder) (h : Handle) (st : Store) :
    ∃ r, (b.pushSlot h st).value = { b with placeholders := r }.push (.slot h) := by
  unfold pushSlot
  split <;> exact ⟨_, rfl⟩

/-- A new placeholder is declared and put behind the fragments. -/
theorem place_cases (b : Builder) (name : String) (st : Store) :
    (∃ e, b.placeholders.declare name st = .error e ∧
      b.place name st = { state := (b, st), refusal := some e }) ∨
    ∃ d, b.placeholders.declare name st = .ok d ∧
      b.place name st =
        { state := ({ b with placeholders := d.registry }.push (.slot d.handle), d.store)
          log := [.placed b.name name b.fragments.size] } := by
  unfold place
  cases b.placeholders.declare name st with
  | error e => exact .inl ⟨e, rfl, rfl⟩
  | ok d => exact .inr ⟨d, rfl, rfl⟩

/-- A new placeholder is declared, filled by a call on its handle and put behind the fragments. -/
theorem placeWith_cases (b : Builder) (name : String) (c : Content) (st : Store) :
    (∃ e, b.placeholders.declare name st = .error e ∧
      b.placeWith name c st = { state := (b, st), refusal := some e }) ∨
    ∃ d, b.placeholders.declare name st = .ok d ∧
      (b.placeWith name c st).state.2 = ((HandleCall.add c).run d.handle d.store).state ∧
      ((b.placeWith name c st).state.1 = { b with placeholders := d.registry } ∨
        (b.placeWith name c st).state.1 =
          { b with placeholders := d.registry }.push (.slot d.handle)) := by
  unfold placeWith
  cases hd : b.placeholders.declare name st with
  | error e => exact .inl ⟨e, rfl, rfl⟩
  | ok d =>
    refine .inr ⟨d, rfl, ?_⟩
    simp only [HandleCall.run]
    cases (d.handle.add c d.store).refusal with
    | none => exact ⟨rfl, .inr rfl⟩
    | some e => exact ⟨rfl, .inl rfl⟩

end Hypertext.Builder
