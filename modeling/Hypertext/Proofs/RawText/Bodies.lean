import Hypertext.Proofs.Nesting.Builders
import Hypertext.Proofs.RawText.Breaking
import Hypertext.Session.Call

/-! # Bodies of raw text

The body of a `<script>` or `<style>` element is the texts that calls bring to it, each with its end
tags broken. So the element ends early just if an end tag is split over its texts. -/

namespace Hypertext

open Escape (IsEndTag Straddles breakEndTags broken lower)

/-- The end tag that ends an element of raw text, in small letters. -/
def ElementKind.rawEndTag? : ElementKind → Option (List Char)
  | .script => some Escape.scriptEndTag
  | .style => some Escape.styleEndTag
  | .void | .optionalEnd | .normal => none

section

variable {kind : ElementKind} {endTag : List Char}

theorem ElementKind.isEndTag_of_rawEndTag? (hk : kind.rawEndTag? = some endTag) :
    IsEndTag endTag := by
  cases kind with
  | script =>
    cases hk
    exact Escape.isEndTag_script
  | style =>
    cases hk
    exact Escape.isEndTag_style
  | void | optionalEnd | normal => cases hk

theorem ElementKind.requiresEndTag_of_rawEndTag? (hk : kind.rawEndTag? = some endTag) :
    kind.requiresEndTag = true := by
  cases kind with
  | script | style => rfl
  | void | optionalEnd | normal => cases hk

theorem ElementKind.isVoid_of_rawEndTag? (hk : kind.rawEndTag? = some endTag) :
    kind.isVoid = false := by
  cases kind with
  | script | style => rfl
  | void | optionalEnd | normal => cases hk

theorem Builder.escapeFor_of_rawEndTag? (hk : kind.rawEndTag? = some endTag) (text : String) :
    escapeFor (some kind) text = String.ofList (breakEndTags endTag text.toList) := by
  cases kind with
  | script | style =>
    cases hk
    rfl
  | void | optionalEnd | normal => cases hk

end

/-! ## Calls that make a body -/

/-- A call that brings texts or attributes to an element. -/
inductive BodyCall where
  | attributes (given : List (String × AttributeValue))
  | append (text : String)
  | content (text : String)
  | contents (texts : List String)

namespace BodyCall

def texts : BodyCall → List String
  | attributes _ => []
  | append text | content text => [text]
  | contents texts => texts

/-- A pending element ends with the call. -/
def closes : BodyCall → Bool
  | attributes _ | append _ => false
  | content _ | contents _ => true

def run (b : Builder) (st : Store) (call : BodyCall) : Builder :=
  let call : BuilderCall Content AttributeValue String :=
    match call with
    | attributes given => .attributes given
    | append text => .append (.text text)
    | content text => .content (.text text)
    | contents texts => .contents (texts.map .text)
  (call.run b st).state.1

def runAll (b : Builder) (st : Store) (calls : List BodyCall) : Builder :=
  calls.foldl (fun b call => call.run b st) b

end BodyCall

namespace Builder

variable {b c : Builder} {host : List Fragment} {name : String} {kind : ElementKind}
  {texts : List String}

def textFragments (kind : ElementKind) (texts : List String) : List Fragment :=
  texts.map fun text => .piece (.text (escapeFor (some kind) text))

theorem textFragments_append (kind : ElementKind) (texts more : List String) :
    textFragments kind (texts ++ more) = textFragments kind texts ++ textFragments kind more :=
  List.map_append

/-- Behind the host's fragments, the builder has an element with the texts for its body, which is
open for more: it is pending, or the innermost scope holds it open. -/
structure Fills (host : List Fragment) (name : String) (kind : ElementKind) (texts : List String)
    (c : Builder) : Prop where
  fragments : ∃ tag : StartTag, tag.name = name ∧
    c.fragments.toList = host ++ .piece (.startTag tag) :: textFragments kind texts
  position : ∀ element, c.pending = some element → element.position = host.length
  textKind : c.stack.textKind = some kind

namespace Fills

theorem pushText (h : Fills host name kind texts c) (text : String) :
    Fills host name kind (texts ++ [text]) (c.pushText text) := by
  obtain ⟨tag, hname, hf⟩ := h.fragments
  refine ⟨⟨tag, hname, ?_⟩, h.position, h.textKind⟩
  rw [Builder.pushText, toList_pushPiece, h.textKind, hf, textFragments_append, List.append_assoc,
    List.cons_append]
  rfl

theorem giveAttributes (h : Fills host name kind texts c) (given : Attributes) :
    Fills host name kind texts (c.giveAttributes given).value := by
  unfold Builder.giveAttributes
  split
  · exact h
  · split
    · rename_i element old hpending
      obtain ⟨tag, hname, hf⟩ := h.fragments
      obtain ⟨e, hp, hat⟩ := Option.bind_eq_some_iff.mp hpending
      rw [h.position e hp, startTagAt?_of_toList hf] at hat
      cases hat
      refine ⟨⟨{ old with attributes := old.attributes ++ given }, hname, ?_⟩, h.position,
        h.textKind⟩
      exact toList_replaceTag hf (h.position element hp) _
    · exact h

end Fills

theorem stack_giveAttributes (c : Builder) (given : Attributes) :
    (c.giveAttributes given).value.stack = c.stack := by
  unfold giveAttributes
  split
  · rfl
  · split <;> rfl

theorem value_appendTexts (c : Builder) (texts : List String) (st : Store) :
    ((texts.map Content.text).foldlM (fun (b : Builder) c => b.append c st) c).value =
      texts.foldl pushText c := by
  induction texts generalizing c with
  | nil => rfl
  | cons text texts ih => exact ih _

theorem Fills.pushTexts (h : Fills host name kind texts c) (more : List String) :
    Fills host name kind (texts ++ more) (more.foldl Builder.pushText c) := by
  induction more generalizing c texts with
  | nil => rwa [List.append_nil]
  | cons text more ih =>
    rw [List.append_cons]
    exact ih (h.pushText text)

theorem stack_pushTexts (c : Builder) (more : List String) :
    (more.foldl pushText c).stack = c.stack := by
  induction more generalizing c with
  | nil => rfl
  | cons text more ih => exact ih _

/-- A call brings its texts to the element, and then it may close the element. -/
theorem Fills.run (h : Fills host name kind texts c) (call : BodyCall) (st : Store) :
    ∃ d, Fills host name kind (texts ++ call.texts) d ∧ d.stack = c.stack ∧
      call.run c st = if call.closes then d.close else d := by
  cases call with
  | attributes given =>
    rw [BodyCall.texts, List.append_nil]
    exact ⟨_, h.giveAttributes _, stack_giveAttributes c _, rfl⟩
  | append text => exact ⟨_, h.pushText text, rfl, rfl⟩
  | content text => exact ⟨_, h.pushText text, rfl, rfl⟩
  | contents more =>
    refine ⟨_, h.pushTexts more, stack_pushTexts c more, ?_⟩
    exact congrArg close (value_appendTexts c more st)

theorem close_of_not_pending (h : c.stack.pending = none) : c.close = c := by
  have same : ({ c with stack.pending := none } : Builder) = c := by rw [← h]
  rw [close, same, TagStack.impliedEnd, h]
  rfl

/-- The element stays open as long as no call closes it. Where a scope holds it open, nothing is
pending, and no call can. -/
theorem Fills.runAll (h : Fills host name kind texts c) {calls : List BodyCall}
    (hc : c.stack.pending = none ∨ ∀ call ∈ calls, call.closes = false) (st : Store) :
    Fills host name kind (texts ++ calls.flatMap BodyCall.texts) (BodyCall.runAll c st calls) ∧
      (BodyCall.runAll c st calls).stack = c.stack := by
  induction calls generalizing c texts with
  | nil => exact ⟨by rwa [List.flatMap_nil, List.append_nil], rfl⟩
  | cons call calls ih =>
    obtain ⟨d, hd, hstack, hrun⟩ := h.run call st
    have stays : call.run c st = d := by
      rw [hrun]
      split
      · rename_i closes
        rcases hc with hp | hc
        · exact close_of_not_pending (by rw [hstack, hp])
        · rw [hc call List.mem_cons_self] at closes
          cases closes
      · rfl
    rw [List.flatMap_cons, ← List.append_assoc, BodyCall.runAll, List.foldl_cons, stays, ← hstack]
    refine ih hd ?_
    rw [hstack]
    exact hc.imp_right fun hc call hm => hc call (List.mem_cons_of_mem _ hm)

/-! ## Elements -/

theorem Fills.tag (b : Builder) (identifier : String) :
    Fills b.close.fragments.toList (htmlName identifier) (.ofName (htmlName identifier)) []
      (b.tag identifier) where
  fragments := ⟨{ name := htmlName identifier }, rfl, by simp [Builder.tag, textFragments]⟩
  position element he := by
    cases he
    exact Array.length_toList.symm
  textKind := rfl

theorem Fills.enterScope {element : OpenTag} (h : Fills host name kind texts c)
    (hp : c.stack.pending = some element) : Fills host name kind texts c.enterScope.value := by
  obtain ⟨tag, hname, hf⟩ := h.fragments
  have hat := startTagAt?_of_toList hf
  have position := h.position element hp
  unfold Builder.enterScope
  simp only [Builder.pendingTag?, Builder.pending, hp, Option.bind_some, position, hat,
    Option.map_some]
  refine ⟨⟨{ tag with heldOpen := true }, hname, toList_replaceTag hf position _⟩, ?_, ?_⟩
  · intro _ he
    cases he
  · exact h.textKind

/-- The builder is rendered as the host with the element closed behind it: a start tag of the name,
the body, its end tag, and then the end tags that the host owes. -/
def Adds (b : Builder) (name body : String) (c : Builder) : Prop :=
  ∃ tag : StartTag, tag.name = name ∧ ∀ st : Store,
    (c.render st).value = (({ b.close with stack := {} } : Builder).render st).value ++ tag.html ++
      body ++ (Piece.endTag name).html ++
        Piece.render ((b.stack.scopes.filterMap Scope.owes).map .endTag)

/-- The body that the texts come to in an element of raw text. -/
def rawBody (endTag : List Char) (texts : List String) : String :=
  String.ofList (broken endTag (texts.map String.toList))

theorem render_texts {endTag : List Char} (hk : kind.rawEndTag? = some endTag)
    (texts : List String) :
    Piece.render (texts.map fun text => .text (escapeFor (some kind) text)) =
      rawBody endTag texts := by
  apply String.toList_inj.mp
  simp [rawBody, broken, List.flatMap_map, Piece.html, escapeFor_of_rawEndTag? hk]

theorem Fills.adds {endTag : List Char} (hk : kind.rawEndTag? = some endTag)
    (h : Fills b.close.fragments.toList name kind texts c)
    (ho : c.stack.owed = name :: b.stack.scopes.filterMap Scope.owes) {d : Builder}
    (hd : d.ended = c.ended) : b.Adds name (rawBody endTag texts) d := by
  obtain ⟨tag, hname, hf⟩ := h.fragments
  refine ⟨tag, hname, fun st => ?_⟩
  have hm := Store.marks_walkSlot st st.depthBound
  have bare : ({ b.close with stack := {} } : Builder).ended = b.close.fragments.toList :=
    List.append_nil _
  have pieces : textFragments kind texts =
      (texts.map fun text => Piece.text (escapeFor (some kind) text)).map Fragment.piece := by
    rw [List.map_map]
    rfl
  have ended : d.ended = b.close.fragments.toList ++ .piece (.startTag tag) ::
      (textFragments kind texts ++
        .piece (.endTag name) :: endTags (b.stack.scopes.filterMap Scope.owes)) := by
    rw [hd, Builder.ended, hf, ho, endTags_cons, List.append_assoc, List.cons_append]
  simp only [Builder.render, Walk.logged, Walk.html, flatten_eq_walk, ended, bare, pieces,
    Store.walkFragments_append hm, Store.walkFragments_piece, Store.walkFragments_pieces,
    Store.walkFragments_endTags, Walk.join, Piece.render_append, Piece.render_cons,
    render_texts hk, String.append_assoc]
  rfl

end Builder

/-- **What ends raw text early.** The texts that come to a `<script>` or `<style>` element, by calls
on the pending element or in a scope of it, make up its body, with the end tags in each of them
broken. An end tag is left in the body, in some letter case, just if one begins in one of the texts
and ends in a later one. -/
theorem raw_text_ends_early_iff {identifier : String} {endTag : List Char}
    (hk : (ElementKind.ofName (htmlName identifier)).rawEndTag? = some endTag) (b : Builder)
    (st : Store) {first : List BodyCall} (ho : ∀ call ∈ first, call.closes = false)
    (last : BodyCall) (rest : List BodyCall) :
    b.Adds (htmlName identifier)
      (Builder.rawBody endTag ((first ++ [last]).flatMap BodyCall.texts))
      (BodyCall.runAll (b.tag identifier) st (first ++ [last])) ∧
    b.Adds (htmlName identifier)
      (Builder.rawBody endTag ((first ++ rest).flatMap BodyCall.texts))
      (BodyCall.runAll (BodyCall.runAll (b.tag identifier) st first).enterScope.value st
        rest).leaveScope ∧
    ∀ texts : List String, endTag <:+: lower (Builder.rawBody endTag texts).toList ↔
      Straddles endTag (texts.map String.toList) := by
  obtain ⟨pending, stack⟩ := (Builder.Fills.tag b identifier).runAll (.inr ho) st
  rw [List.nil_append] at pending
  refine ⟨?_, ?_, ?_⟩
  · obtain ⟨d, hd, hstack, hrun⟩ := pending.run last st
    have run : BodyCall.runAll (b.tag identifier) st (first ++ [last]) =
        last.run (BodyCall.runAll (b.tag identifier) st first) st := by
      rw [BodyCall.runAll, List.foldl_append]
      rfl
    rw [run, hrun, List.flatMap_append, List.flatMap_singleton]
    refine hd.adds hk ?_ ?_
    · rw [hstack, stack]
      simp [Builder.tag, TagStack.owed, TagStack.impliedEnd, OpenTag.kind,
        ElementKind.requiresEndTag_of_rawEndTag? hk]
    · split
      · exact Builder.ended_close d
      · rfl
  · have entered := pending.enterScope (by rw [stack]; rfl)
    obtain ⟨filled, stack'⟩ := entered.runAll (.inl rfl) st
    rw [← List.flatMap_append] at filled
    refine filled.adds hk ?_ (Builder.ended_leaveScope _)
    rw [stack', Builder.enterScope, stack]
    simp [Builder.tag, TagStack.owed, TagStack.impliedEnd, TagStack.enter,
      TagStack.scopeOfPending, OpenTag.kind, ElementKind.isVoid_of_rawEndTag? hk]
  · intro texts
    rw [Builder.rawBody, String.toList_ofList]
    exact Escape.infix_broken_iff (ElementKind.isEndTag_of_rawEndTag? hk) _

/-- An end tag in two texts, as calls bring them one after the other. -/
def splitEndTag : List BodyCall :=
  [.append "</scr", .append "ipt>"]

theorem straddles_splitEndTag :
    Straddles Escape.scriptEndTag ((splitEndTag.flatMap BodyCall.texts).map String.toList) :=
  ⟨[], "</scr".toList, ["ipt>".toList], rfl, "</scr".toList, List.suffix_refl _, by decide +kernel,
    by decide +kernel, by decide +kernel⟩

theorem raw_text_ends_early_split :
    (ElementKind.ofName (htmlName "script")).rawEndTag? = some Escape.scriptEndTag ∧
    (∀ call ∈ splitEndTag.take 1, call.closes = false) ∧
    ({ name := "E Builder" } : Builder).Adds "script"
      (Builder.rawBody Escape.scriptEndTag (splitEndTag.flatMap BodyCall.texts))
      (BodyCall.runAll (({ name := "E Builder" } : Builder).tag "script") {} splitEndTag) ∧
    Escape.scriptEndTag <:+:
      lower (Builder.rawBody Escape.scriptEndTag (splitEndTag.flatMap BodyCall.texts)).toList := by
  have kind : (ElementKind.ofName (htmlName "script")).rawEndTag? = some Escape.scriptEndTag := by
    decide +kernel
  have pending : ∀ call ∈ splitEndTag.take 1, call.closes = false := by
    decide +kernel
  have name : htmlName "script" = "script" := by decide +kernel
  obtain ⟨adds, _, iff⟩ :=
    raw_text_ends_early_iff kind { name := "E Builder" } {} pending (.append "ipt>") []
  rw [name] at adds
  exact ⟨kind, pending, adds, (iff _).mpr straddles_splitEndTag⟩

/-- The body of a script that two texts make up is an end tag. -/
theorem end_tag_of_split_texts :
    ((BodyCall.runAll (({ name := "E Builder" } : Builder).tag "script") {} splitEndTag).render
      {}).value = "<script>" ++ "</script>" ++ "</script>" ∧
    Escape.scriptEndTag <:+: lower "</script>".toList :=
  ⟨by decide +kernel, by decide +kernel⟩

end Hypertext
