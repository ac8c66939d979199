import Hypertext.Proofs.Lives.Sessions
import Hypertext.Proofs.Nesting.Rendering
import Hypertext.Proofs.RawText.Bodies
import Hypertext.Proofs.Texts.Plain
import Mathlib.Data.List.ReduceOption

/-! # The element around a text

Text lands in the innermost element that is open behind it in the output. A void element is never
open, yet a builder keeps it like others: as pending, or as the element of a scope. It escapes text
for the innermost element that it keeps. So text behind a void element is not escaped as the code or
rules of the `<script>` or `<style>` element that it lands in. -/

namespace Hypertext

open Piece (scan)

namespace Builder

/-! ## The elements of a builder -/

/-- The elements that a builder keeps, by name: the pending one, and those of the open scopes,
innermost first. A scope that was opened with nothing pending has none. -/
structure Elements where
  pending : Option String := none
  scopes : List (Option String) := []

namespace Elements

/-- What an event leaves of the elements. -/
def after (es : Elements) : Event → Elements
  | .leaveScope => { scopes := es.scopes.tail }
  | .call call _ =>
    match call with
    | .tag identifier => { es with pending := some (htmlName identifier) }
    | .content _ | .contents _ | .close | .script _ | .style _ => { es with pending := none }
    | .enterScope => { scopes := es.pending :: es.scopes }
    | .reset => {}
    | .attributes _ | .append _ | .comment _ | .place _ | .placeWith .. | .set .. | .clear _ => es

/-- The elements that a builder keeps after its life. -/
def afterAll (events : List Event) : Elements :=
  events.foldl after {}

/-- The names of the elements, innermost first. -/
def names (es : Elements) : List String :=
  (es.pending :: es.scopes).reduceOption

/-- The names of those that can have content. -/
def enclosing (es : Elements) : List String :=
  es.names.filter fun name => !(ElementKind.ofName name).isVoid

/-- The innermost element is void. -/
def InVoid (es : Elements) : Prop :=
  ∃ name ∈ es.names.head?, ElementKind.ofName name = .void

/-- The innermost element that can have content is a script or style. -/
def InRawText (es : Elements) : Prop :=
  ElementKind.Raw (es.enclosing.head?.map ElementKind.ofName)

end Elements

/-! ## Scopes and their elements -/

/-- The scopes that were opened on the elements. -/
def scopesOf : List (Option String) → List Scope
  | [] => []
  | some name :: scopes =>
    ⟨some (.ofName name), if (ElementKind.ofName name).isVoid then none else some name⟩ ::
      scopesOf scopes
  | none :: scopes => ⟨(scopesOf scopes).head?.bind Scope.kind, none⟩ :: scopesOf scopes

@[simp] theorem tail_scopesOf (scopes : List (Option String)) :
    (scopesOf scopes).tail = scopesOf scopes.tail := by
  cases scopes with
  | nil => rfl
  | cons e scopes => cases e <;> rfl

/-- The kind that a scope keeps is that of the innermost element. -/
theorem kind_scopesOf (scopes : List (Option String)) :
    (scopesOf scopes).head?.bind Scope.kind =
      scopes.reduceOption.head?.map ElementKind.ofName := by
  induction scopes with
  | nil => rfl
  | cons e scopes ih =>
    cases e with
    | none => exact ih
    | some name => rfl

/-- The scopes owe the end tags of the elements that can have content. -/
theorem owes_scopesOf (scopes : List (Option String)) :
    (scopesOf scopes).filterMap Scope.owes =
      scopes.reduceOption.filter fun name => !(ElementKind.ofName name).isVoid := by
  induction scopes with
  | nil => rfl
  | cons e scopes ih =>
    cases e with
    | none => exact ih
    | some name =>
      rw [scopesOf, List.reduceOption_cons_of_some]
      cases hv : (ElementKind.ofName name).isVoid <;> simp [hv, ih]

/-- The elements are those that the builder keeps, as its stack has them. -/
structure Tracks (b : Builder) (es : Elements) : Prop where
  pending : b.pending.map OpenTag.name = es.pending
  scopes : b.stack.scopes = scopesOf es.scopes

namespace Tracks

variable {b c : Builder} {es : Elements}

theorem of_stack (h : b.Tracks es) (hs : c.stack = b.stack) : c.Tracks es where
  pending := by rw [Builder.pending, hs]; exact h.pending
  scopes := by rw [hs]; exact h.scopes

/-- The pending element ends, and the scopes stay. -/
theorem of_closed (h : b.Tracks es) (hs : c.stack = { b.stack with pending := none }) :
    c.Tracks { es with pending := none } where
  pending := by rw [Builder.pending, hs]; rfl
  scopes := by rw [hs]; exact h.scopes

theorem new (name : String) : ({ name } : Builder).Tracks {} :=
  ⟨rfl, rfl⟩

theorem close (h : b.Tracks es) : b.close.Tracks { es with pending := none } :=
  h.of_closed (stack_close b)

theorem tag (h : b.Tracks es) (identifier : String) :
    (b.tag identifier).Tracks { es with pending := some (htmlName identifier) } where
  pending := rfl
  scopes := h.close.scopes

theorem element (h : b.Tracks es) (identifier text : String) :
    (b.element identifier text).Tracks { es with pending := none } :=
  ((h.tag identifier).of_stack (stack_pushPiece _ _)).close

theorem append (h : b.Tracks es) (c : Content) (st : Store) : (b.append c st).value.Tracks es :=
  h.of_stack (stack_append b c st)

theorem appendAll (h : b.Tracks es) (cs : List Content) (st : Store) :
    (cs.foldlM (fun (b : Builder) c => b.append c st) b).value.Tracks es :=
  Logged.foldlM_induction (R := fun b : Builder => b.Tracks es) h fun c _ _ h => h.append c st

/-- The pending element becomes that of the new scope. -/
theorem enterScope (h : b.Tracks es) :
    b.enterScope.value.Tracks { scopes := es.pending :: es.scopes } where
  pending := rfl
  scopes := by
    change b.stack.scopeOfPending :: b.stack.scopes = scopesOf (es.pending :: es.scopes)
    have named := h.pending
    rw [h.scopes, TagStack.scopeOfPending, TagStack.textKind, h.scopes]
    cases hp : b.stack.pending with
    | none =>
      rw [Builder.pending, hp] at named
      rw [← named]
      rfl
    | some element =>
      rw [Builder.pending, hp] at named
      rw [← named]
      rfl

theorem leaveScope (h : b.Tracks es) : b.leaveScope.Tracks { scopes := es.scopes.tail } where
  pending := by rw [Builder.pending, stack_leaveScope]; rfl
  scopes := by rw [stack_leaveScope, h.scopes, tail_scopesOf]

theorem after (h : b.Tracks es) (event : Event) : (b.after event).Tracks (es.after event) := by
  cases event with
  | leaveScope => exact h.leaveScope
  | call call st =>
    cases call with
    | tag identifier => exact h.tag identifier
    | attributes given => exact h.of_stack (stack_giveAttributes b _)
    | content c => exact (h.append c st).close
    | contents cs => exact (h.appendAll cs st).close
    | append c => exact h.append c st
    | close => exact h.close
    | script code => exact h.element "script" code
    | style rules => exact h.element "style" rules
    | comment text => exact h.of_stack (stack_pushPiece _ _)
    | enterScope => exact h.enterScope
    | place name =>
      refine h.of_stack ?_
      rcases b.place_cases name st with ⟨e, _, hrun⟩ | ⟨d, _, hrun⟩
      · rw [Builder.after, BuilderCall.run, hrun]
      · rw [Builder.after, BuilderCall.run, hrun, stack_push]
    | placeWith name c =>
      refine h.of_stack ?_
      rcases b.placeWith_cases name c st with ⟨e, _, hrun⟩ | ⟨d, _, _, hb | hb⟩
      · rw [Builder.after, BuilderCall.run, hrun]
      · rw [Builder.after, BuilderCall.run, hb]
      · rw [Builder.after, BuilderCall.run, hb, stack_push]
    | set | clear => exact h
    | reset => exact .new b.name

/-- The elements follow from the life. -/
theorem afterAll {events : List Event} (h : b.Lived events) :
    b.Tracks (Elements.afterAll events) := by
  obtain ⟨name, rfl⟩ := h
  suffices kept : ∀ (b : Builder) (es : Elements), b.Tracks es →
      (b.afterAll events).Tracks (events.foldl Elements.after es) from
    kept _ _ (.new name)
  induction events with
  | nil => exact fun _ _ h => h
  | cons event events ih => exact fun b es h => ih _ _ (h.after event)

/-- The kind that text is escaped for is that of the innermost element. -/
theorem textKind (h : b.Tracks es) :
    b.stack.textKind = es.names.head?.map ElementKind.ofName := by
  have named := h.pending
  rw [TagStack.textKind, h.scopes, kind_scopesOf, Elements.names, ← named, Builder.pending]
  cases b.stack.pending with
  | none => rfl
  | some element => rfl

/-- With the pending element held open, the builder owes the end tags of the elements that can have
content. -/
theorem owed_enterScope (h : b.Tracks es) : b.enterScope.value.stack.owed = es.enclosing := by
  have entered := h.enterScope
  have none : b.enterScope.value.stack.impliedEnd = none := rfl
  rw [TagStack.owed, none, entered.scopes, owes_scopesOf]
  rfl

end Tracks

/-! ## What is open in the output -/

/-- The builder without the end tags that it owes. -/
def unended (b : Builder) : Builder :=
  { b with stack := {} }

theorem ended_unended (b : Builder) : b.unended.ended = b.fragments.toList :=
  List.append_nil _

/-- The markup of fragments is that of what the output has of them. -/
theorem html_walkFragments {enter : Handle → Marks → Walk} {fs gs : List Fragment} {marks : Marks}
    (h : fs.map Fragment.written = gs.map Fragment.written) :
    (Store.walkFragments enter fs marks).html = (Store.walkFragments enter gs marks).html := by
  induction fs generalizing gs marks with
  | nil =>
    cases gs with
    | nil => rfl
    | cons g gs => cases h
  | cons f fs ih =>
    cases gs with
    | nil => cases h
    | cons g gs =>
      obtain ⟨same, rest⟩ := List.cons_eq_cons.mp h
      cases f with
      | piece p =>
        cases g with
        | slot _ => cases same
        | piece q =>
          have written : p.html = q.html := Sum.inl.inj same
          change Piece.render (p :: _) = Piece.render (q :: _)
          rw [Piece.render_cons, Piece.render_cons, written]
          exact congrArg _ (ih rest)
      | slot i =>
        cases g with
        | piece _ => cases same
        | slot j =>
          cases Sum.inr.inj same
          change Piece.render (_ ++ _) = Piece.render (_ ++ _)
          rw [Piece.render_append, Piece.render_append]
          exact congrArg _ (ih rest)

/-- To hold the pending element open is not seen in the output. -/
theorem render_unended_enterScope (b : Builder) (st : Store) :
    (b.enterScope.value.unended.render st).value = (b.unended.render st).value := by
  change (st.flatten _).html = (st.flatten _).html
  rw [flatten_eq_walk, flatten_eq_walk, ended_unended, ended_unended]
  exact html_walkFragments b.written_enterScope

/-- With the pending element held open, the output leaves open the elements that can have content. -/
theorem Tracks.scan_flatten {P : Policy} {b : Builder} {es : Elements} {st : Store} (h : b.Tracks es)
    (hb : b.Made P) (hst : st.Made P) :
    scan (st.flatten b.enterScope.value.unended).pieces [] = some es.enclosing := by
  rw [flatten_eq_walk, ended_unended, Store.scan_walkFragments (hst.neutral_walkSlot _),
    hb.enterScope.nests.scan_eq, h.owed_enterScope]

/-! ## How text is escaped -/

theorem pushPiece_text_inj {b : Builder} {text other : String}
    (h : b.pushPiece (.text text) = b.pushPiece (.text other)) : text = other := by
  have rows := congrArg (fun b : Builder => b.fragments.toList) h
  simpa using rows

/-- Code and rules keep what other text may not have. -/
theorem escapeFor_of_raw_ne {kind : Option ElementKind} (h : ElementKind.Raw kind) :
    escapeFor kind "<" ≠ Escape.escapeText "<" := by
  rcases h with rfl | rfl
  · decide +kernel
  · decide +kernel

namespace Elements

variable {es : Elements}

/-- Where the innermost element is not void, text lands in it. -/
theorem head?_enclosing (h : ¬ es.InVoid) : es.enclosing.head? = es.names.head? := by
  rw [enclosing]
  cases hn : es.names with
  | nil => rfl
  | cons name names =>
    have first : name ∈ es.names.head? := by rw [hn]; rfl
    have content : (ElementKind.ofName name).isVoid = false :=
      eq_false_of_ne_true fun void => h ⟨name, first, of_decide_eq_true void⟩
    rw [List.filter_cons_of_pos (by simp [content])]
    rfl

/-- Text is escaped as for the element that it lands in, unless that is a script or style and a void
element is innermost. -/
theorem escapes_iff (es : Elements) :
    (∀ text, escapeFor (es.names.head?.map ElementKind.ofName) text =
      escapeFor (es.enclosing.head?.map ElementKind.ofName) text) ↔
    ¬ (es.InVoid ∧ es.InRawText) := by
  by_cases void : es.InVoid
  · have escaped (text : String) :
        escapeFor (es.names.head?.map ElementKind.ofName) text = Escape.escapeText text := by
      obtain ⟨name, first, kind⟩ := void
      rw [Option.mem_def.mp first, Option.map_some, kind]
      rfl
    simp only [escaped]
    constructor
    · rintro same ⟨_, raw⟩
      exact escapeFor_of_raw_ne raw (same "<").symm
    · intro elsewhere text
      exact (escapeFor_of_not_raw (fun raw => elsewhere ⟨void, raw⟩) text).symm
  · rw [head?_enclosing void]
    exact iff_of_true (fun _ => rfl) fun both => void both.1

end Elements

end Builder

namespace Session

open Builder (Elements escapeFor)

/-- **Text is escaped for the innermost element.** Every builder of a session has a life, and the life
tells the elements that the builder keeps: the pending one and those of the open scopes. The output
so far, in which the pending element is then held open, leaves open those of them that are not void.
Text that is appended, or comes as content, is escaped for the innermost element of all. That is
right for the element in which it lands, unless the innermost element is void and the text lands in a
script or style. -/
theorem text_escaped_for_innermost {s : Session} {b : Builder} (hs : s.Reachable)
    (hb : s.Holds b) :
    b.HasLife ∧ ∀ events, b.Lived events →
      scan (s.store.flatten b.enterScope.value.unended).pieces [] =
        some (Elements.afterAll events).enclosing ∧
      (b.enterScope.value.unended.render s.store).value = (b.unended.render s.store).value ∧
      (∀ text st,
        (b.append (.text text) st).value = b.pushPiece (.text
          (escapeFor ((Elements.afterAll events).names.head?.map ElementKind.ofName) text)) ∧
        (b.content (.text text) st).value = (b.append (.text text) st).value.close) ∧
      ((∀ text st,
        (b.append (.text text) st).value = b.pushPiece (.text
          (escapeFor ((Elements.afterAll events).enclosing.head?.map ElementKind.ofName) text))) ↔
        ¬ ((Elements.afterAll events).InVoid ∧ (Elements.afterAll events).InRawText)) := by
  have made : b.Made .any := by
    rcases hb with ⟨i, _, rfl⟩ | ⟨name, own⟩
    · exact hs.made.store i
    · exact hs.made.own name b own
  refine ⟨hs.hasLife hb, ?_⟩
  intro events lived
  have tracked := Builder.Tracks.afterAll lived
  have appended (text : String) (st : Store) :
      (b.append (.text text) st).value = b.pushPiece (.text
        (escapeFor ((Elements.afterAll events).names.head?.map ElementKind.ofName) text)) := by
    rw [Builder.append, Builder.pushText, tracked.textKind]
  refine ⟨tracked.scan_flatten made hs.made.store, b.render_unended_enterScope s.store,
    fun text st => ⟨appended text st, rfl⟩, ?_⟩
  rw [← Elements.escapes_iff]
  constructor
  · intro right text
    exact Builder.pushPiece_text_inj ((appended text {}).symm.trans (right text {}))
  · intro same text st
    rw [appended text st, same text]

/-- A scope of a script, and in it a scope with nothing pending. -/
def scriptScopes : List Action :=
  [.perform (.create "b" none),
    .perform (.call "b" (.tag "script")),
    .perform (.call "b" .enterScope),
    .perform (.call "b" .enterScope)]

/-- The life of its builder. -/
def scriptLife : List Builder.Event :=
  [.call (.tag "script") {}, .call .enterScope {}, .call .enterScope {}]

theorem text_escaped_for_innermost_script :
    (run {} scriptScopes).Reachable ∧
    ∃ b, (run {} scriptScopes).Holds b ∧ b.Lived scriptLife ∧
      scan ((run {} scriptScopes).store.flatten b.enterScope.value.unended).pieces [] =
        some ["script"] ∧
      ∀ text st, (b.append (.text text) st).value =
        b.pushPiece (.text (escapeFor (some .script) text)) := by
  have reached := Reachable.start.run scriptScopes
  have standing : (run {} scriptScopes).builder? "b" =
      some (Builder.afterAll { name := "E Builder" } scriptLife) := by
    decide +kernel
  have held := reached.sound.holds standing
  have lived : (Builder.afterAll { name := "E Builder" } scriptLife).Lived scriptLife := ⟨_, rfl⟩
  obtain ⟨_, told⟩ := text_escaped_for_innermost reached held
  obtain ⟨opened, _, written, _⟩ := told scriptLife lived
  have names : (Elements.afterAll scriptLife).names = ["script"] := by decide +kernel
  have enclosing : (Elements.afterAll scriptLife).enclosing = ["script"] := by decide +kernel
  refine ⟨reached, _, held, lived, by rw [opened, enclosing], ?_⟩
  intro text st
  have kind : ElementKind.ofName "script" = .script := by decide +kernel
  rw [(written text st).1, names, List.head?_cons, Option.map_some, kind]

/-- A line break in a scope of a script. -/
def breakInScript : List Action :=
  [.perform (.create "b" none),
    .perform (.call "b" (.tag "script")),
    .perform (.call "b" .enterScope),
    .perform (.call "b" (.tag "br"))]

def breakBuilder : Builder where
  name := "E Builder"
  fragments := #[.piece (.startTag { name := "script", heldOpen := true }),
    .piece (.startTag { name := "br" })]
  stack := { pending := some ⟨"br", 1⟩, scopes := [⟨some .script, some "script"⟩] }

/-- Text behind the line break lands in the script, but it is not escaped as code. -/
theorem text_behind_break_in_script :
    (run {} breakInScript).Reachable ∧ (run {} breakInScript).builder? "b" = some breakBuilder ∧
    scan ((run {} breakInScript).store.flatten breakBuilder.enterScope.value.unended).pieces [] =
      some ["script"] ∧
    (breakBuilder.append (.text "a<b") {}).value = breakBuilder.pushPiece (.text "a&lt;b") ∧
    (breakBuilder.append (.text "a<b") {}).value ≠
      breakBuilder.pushPiece (.text (escapeFor (some .script) "a<b")) ∧
    ((breakBuilder.append (.text "a<b") {}).value.render {}).value =
      "<script><br>a&lt;b</script>" :=
  ⟨Reachable.start.run breakInScript, by decide +kernel, by decide +kernel, by decide +kernel,
    by decide +kernel, by decide +kernel⟩

end Session

end Hypertext
