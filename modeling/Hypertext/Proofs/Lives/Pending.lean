import Hypertext.Proofs.Lives.Sessions
import Hypertext.Proofs.RawText.Bodies
import Hypertext.Proofs.Texts.Erase

/-! # The pending start tag

A start tag is written as soon as its element begins. Attributes that are given later are put into
it where it stands, however many fragments have come behind it since. So the place that is kept for
the pending element has to be right after everything that can happen meanwhile, and the tag has to
show what was given in the order in which it was given. -/

namespace Hypertext

namespace Builder

variable {b c d : Builder}

/-! ## What comes behind -/

theorem startTagAt?_eq_some_iff {position : Nat} {tag : StartTag} :
    b.startTagAt? position = some tag ↔
      b.fragments[position]? = some (.piece (.startTag tag)) := by
  unfold startTagAt?
  split
  · rename_i found h
    rw [h]
    simp
  · rename_i h
    exact iff_of_false (fun hn => nomatch hn) (h tag)

theorem startTagAt?_replaceTag {element : OpenTag} {old : StartTag}
    (h : b.startTagAt? element.position = some old) (tag : StartTag) :
    (b.replaceTag element tag).startTagAt? element.position = some tag := by
  rw [startTagAt?_eq_some_iff] at h ⊢
  obtain ⟨bound, _⟩ := Array.getElem?_eq_some_iff.mp h
  exact Array.getElem?_setIfInBounds_self_of_lt bound

theorem replaceTag_self {element : OpenTag} {tag : StartTag}
    (h : b.startTagAt? element.position = some tag) : b.replaceTag element tag = b := by
  obtain ⟨bound, standing⟩ := Array.getElem?_eq_some_iff.mp (startTagAt?_eq_some_iff.mp h)
  have kept : b.fragments.setIfInBounds element.position (.piece (.startTag tag)) =
      b.fragments := by
    rw [← standing, Array.setIfInBounds_def, dif_pos bound, Array.set_getElem_self]
  rw [replaceTag, kept]

theorem pendingTag?_eq {element : OpenTag} {tag : StartTag} (hp : b.pending = some element)
    (h : b.startTagAt? element.position = some tag) : b.pendingTag? = some (element, tag) := by
  rw [pendingTag?, hp, Option.bind_some, h, Option.map_some]

/-- Fragments come behind those of the builder, and no element begins to be pending. -/
structure Extends (b c : Builder) : Prop where
  fragments : b.fragments.toList <+: c.fragments.toList
  pending : c.pending = none ∨ c.pending = b.pending

namespace Extends

theorem refl (b : Builder) : b.Extends b :=
  ⟨List.prefix_rfl, .inr rfl⟩

theorem trans (h : b.Extends c) (h' : c.Extends d) : b.Extends d := by
  refine ⟨h.fragments.trans h'.fragments, ?_⟩
  rcases h'.pending with hn | hs
  · exact .inl hn
  · rw [hs]
    exact h.pending

theorem of_stack {more : List Fragment} (hs : c.stack = b.stack)
    (hf : c.fragments.toList = b.fragments.toList ++ more) : b.Extends c :=
  ⟨⟨more, hf.symm⟩, .inr (congrArg TagStack.pending hs)⟩

theorem startTagAt? {position : Nat} {tag : StartTag} (h : b.Extends c)
    (hb : b.startTagAt? position = some tag) : c.startTagAt? position = some tag := by
  rw [startTagAt?_eq_some_iff, ← Array.getElem?_toList] at hb ⊢
  obtain ⟨more, hf⟩ := h.fragments
  obtain ⟨bound, _⟩ := List.getElem?_eq_some_iff.mp hb
  rw [← hf, List.getElem?_append_left bound]
  exact hb

theorem close (b : Builder) : b.Extends b.close :=
  ⟨⟨_, (toList_close b).symm⟩, .inl (congrArg TagStack.pending (stack_close b))⟩

theorem leaveScope (b : Builder) : b.Extends b.leaveScope :=
  ⟨⟨_, (toList_leaveScope b).symm⟩, .inl (congrArg TagStack.pending (stack_leaveScope b))⟩

theorem append (b : Builder) (c : Content) (st : Store) : b.Extends (b.append c st).value := by
  obtain ⟨more, appended⟩ := exists_append b c st
  exact .of_stack (stack_append b c st) appended

theorem appendAll (cs : List Content) (b : Builder) (st : Store) :
    b.Extends (cs.foldlM (fun (b : Builder) c => b.append c st) b).value :=
  Logged.foldlM_induction (.refl b) fun c _ d more => more.trans (append d c st)

/-- An element that begins and ends at once leaves nothing pending. -/
theorem element (b : Builder) (identifier text : String) :
    b.Extends (b.element identifier text) := by
  show b.Extends ((b.tag identifier).pushText text).close
  refine ⟨?_, .inl (congrArg TagStack.pending (stack_close _))⟩
  have tagged : b.fragments.toList <+: (b.tag identifier).fragments.toList :=
    ⟨_, (toList_tag b identifier).symm⟩
  have texted : (b.tag identifier).Extends ((b.tag identifier).pushText text) :=
    .of_stack rfl (toList_pushPiece _ _)
  exact tagged.trans (texted.trans (close _)).fragments

theorem place (b : Builder) (name : String) (st : Store) :
    b.Extends (b.place name st).state.1 := by
  rcases b.place_cases name st with ⟨e, _, hrun⟩ | ⟨d, _, hrun⟩
  · rw [hrun]
    exact .refl b
  · rw [hrun]
    exact .of_stack rfl (toList_push _ _)

theorem placeWith (b : Builder) (name : String) (c : Content) (st : Store) :
    b.Extends (b.placeWith name c st).state.1 := by
  rcases b.placeWith_cases name c st with ⟨e, _, hrun⟩ | ⟨d, _, _, hb | hb⟩
  · rw [hrun]
    exact .refl b
  · rw [hb]
    exact .of_stack rfl (List.append_nil _).symm
  · rw [hb]
    exact .of_stack rfl (toList_push _ _)

end Extends

/-! ## Events on a pending element -/

/-- Attributes as a call gives them. -/
def givenAttributes (given : List (String × AttributeValue)) : List Attribute :=
  given.map fun (identifier, v) => ⟨identifier, v⟩

namespace Event

/-- The element that the event begins and leaves pending. -/
def opens? : Event → Option String
  | .call (.tag identifier) _ => some identifier
  | _ => none

/-- What the event gives to the pending element. -/
def given : Event → List Attribute
  | .call (.attributes given) _ => givenAttributes given
  | _ => []

/-- The event neither begins an element nor touches the fragments that are there. -/
def Adds : Event → Prop
  | .call (.tag _) _ | .call (.attributes _) _ | .call .enterScope _ | .call .reset _ => False
  | _ => True

end Event

/-- Most events only put fragments behind those that are there. -/
theorem Extends.after {event : Event} (h : event.Adds) (b : Builder) :
    b.Extends (b.after event) := by
  cases event with
  | leaveScope => exact .leaveScope b
  | call call st =>
    cases call with
    | tag | attributes | enterScope | reset => exact h.elim
    | content c => exact (Extends.append b c st).trans (.close _)
    | contents cs => exact (Extends.appendAll cs b st).trans (.close _)
    | append c => exact .append b c st
    | close => exact .close b
    | script code => exact .element b "script" code
    | style rules => exact .element b "style" rules
    | comment text => exact .of_stack rfl (toList_pushPiece b _)
    | place name => exact .place b name st
    | placeWith name c => exact .placeWith b name c st
    | set | clear => exact .refl b

/-- An event that begins no element gives attributes, or it gives none: then it puts fragments
behind or leaves nothing pending. -/
theorem Event.of_opens?_eq_none {event : Event} (ho : event.opens? = none) :
    (∃ more st, event = .call (.attributes more) st) ∨
      event.given = [] ∧ (event.Adds ∨ ∀ b : Builder, (b.after event).pending = none) := by
  cases event with
  | leaveScope => exact .inr ⟨rfl, .inl trivial⟩
  | call call st =>
    cases call with
    | tag => cases ho
    | attributes more => exact .inl ⟨more, st, rfl⟩
    | enterScope | reset => exact .inr ⟨rfl, .inr fun _ => rfl⟩
    | _ => exact .inr ⟨rfl, .inl trivial⟩

/-! ## The tag shows what was given -/

/-- A pending element has the name, and its start tag stands in its place and shows the attributes.
-/
def Shows (b : Builder) (name : String) (given : List Attribute) : Prop :=
  ∀ element, b.pending = some element →
    element.name = name ∧ ∃ tag, b.startTagAt? element.position = some tag ∧
      tag.name = name ∧ tag.attributes.html = (Attributes.mk given).html

namespace Shows

variable {name : String} {given : List Attribute}

theorem of_not_pending (h : b.pending = none) : b.Shows name given :=
  fun element hp => by rw [h] at hp; cases hp

theorem tag (b : Builder) (identifier : String) :
    (b.tag identifier).Shows (htmlName identifier) [] := by
  intro element hp
  cases hp
  have written : (b.tag identifier).fragments.toList =
      b.close.fragments.toList ++ [.piece (.startTag { name := htmlName identifier })] :=
    toList_pushPiece b.close _
  exact ⟨rfl, _, startTagAt?_of_toList written, rfl, rfl⟩

theorem extend (h : b.Shows name given) (hc : b.Extends c) : c.Shows name given := by
  rcases hc.pending with hn | hs
  · exact .of_not_pending hn
  · intro element hp
    rw [hs] at hp
    obtain ⟨named, tag, standing, shown⟩ := h element hp
    exact ⟨named, tag, hc.startTagAt? standing, shown⟩

/-- The pending tag that there is gets the attributes behind its own, and nothing is reported. -/
theorem giveAttributes_eq (h : b.Shows name given) {element : OpenTag}
    (hp : b.pending = some element) (more : Attributes) :
    ∃ tag, tag.name = name ∧
      tag.attributes.html = (Attributes.mk (given ++ more.entries)).html ∧
      b.giveAttributes more = ⟨b.replaceTag element tag, []⟩ := by
  obtain ⟨_, tag, standing, named, shown⟩ := h element hp
  have joined : (Attributes.mk (given ++ more.entries)).html =
      tag.attributes.html ++ more.html := by
    rw [shown]
    exact Attributes.html_append ⟨given⟩ more
  -- Attributes that show nothing leave the builder alone; then the tag is replaced by itself.
  by_cases he : more.html = ""
  · refine ⟨tag, named, by rw [joined, he, String.append_empty], ?_⟩
    rw [replaceTag_self standing, giveAttributes, if_pos he]
  · refine ⟨{ tag with attributes := tag.attributes ++ more }, named, ?_, ?_⟩
    · rw [joined]
      exact Attributes.html_append _ more
    · rw [giveAttributes, if_neg he, pendingTag?_eq hp standing]

theorem giveAttributes (h : b.Shows name given) (more : Attributes) :
    (b.giveAttributes more).value.Shows name (given ++ more.entries) := by
  intro element hp
  have pending : b.pending = some element := by
    rw [← hp, Builder.pending, Builder.pending, stack_giveAttributes]
  obtain ⟨named, _, standing, _⟩ := h element pending
  obtain ⟨tag, htag, shown, hgive⟩ := h.giveAttributes_eq pending more
  rw [hgive]
  exact ⟨named, tag, startTagAt?_replaceTag standing tag, htag, shown⟩

/-- Every event that begins no element keeps the tag in its place and adds what it gives. -/
theorem after (h : b.Shows name given) {event : Event} (ho : event.opens? = none) :
    (b.after event).Shows name (given ++ event.given) := by
  rcases Event.of_opens?_eq_none ho with ⟨more, st, rfl⟩ | ⟨none, adds | closes⟩
  · exact h.giveAttributes ⟨givenAttributes more⟩
  · rw [none, List.append_nil]
    exact h.extend (.after adds b)
  · exact .of_not_pending (closes b)

/-- So it is after any number of events. -/
theorem afterAll {events : List Event} (h : b.Shows name given)
    (ho : ∀ e ∈ events, e.opens? = none) :
    (b.afterAll events).Shows name (given ++ events.flatMap Event.given) := by
  induction events generalizing b given with
  | nil => simpa using h
  | cons e es ih =>
    obtain ⟨he, hes⟩ := List.forall_mem_cons.mp ho
    rw [List.flatMap_cons, ← List.append_assoc]
    exact ih (h.after he) hes

end Shows

/-! ## The life of a pending element -/

theorem pending_after {event : Event} (ho : event.opens? = none) (h : b.pending = none) :
    (b.after event).pending = none := by
  rcases Event.of_opens?_eq_none ho with ⟨more, st, rfl⟩ | ⟨_, adds | closes⟩
  · show (b.giveAttributes _).value.stack.pending = none
    rw [stack_giveAttributes]
    exact h
  · rcases (Extends.after adds b).pending with hn | hs
    · exact hn
    · rw [hs, h]
  · exact closes b

/-- Nothing is pending before the first element begins. -/
theorem pending_afterAll {events : List Event} (ho : ∀ e ∈ events, e.opens? = none)
    (h : b.pending = none) : (b.afterAll events).pending = none := by
  induction events generalizing b with
  | nil => exact h
  | cons e es ih =>
    obtain ⟨he, hes⟩ := List.forall_mem_cons.mp ho
    exact ih hes (pending_after he h)

/-- Either no event begins an element, or some event is the last that does. -/
theorem Event.last_opens (events : List Event) :
    (∀ e ∈ events, e.opens? = none) ∨
      ∃ before identifier st after, events = before ++ .call (.tag identifier) st :: after ∧
        ∀ e ∈ after, e.opens? = none := by
  induction events with
  | nil => exact .inl fun _ he => nomatch he
  | cons e es ih =>
    rcases ih with none | ⟨before, identifier, st, after, rfl, last⟩
    · cases ho : e.opens? with
      | none => exact .inl (List.forall_mem_cons.mpr ⟨ho, none⟩)
      | some identifier =>
        unfold Event.opens? at ho
        split at ho
        · cases ho
          exact .inr ⟨[], _, _, es, rfl, none⟩
        · cases ho
    · exact .inr ⟨e :: before, identifier, st, after, rfl, last⟩

/-- The pending element began with the last event that begins one, and shows what was given since.
-/
theorem Lived.shows {events : List Event} {element : OpenTag} (h : b.Lived events)
    (hp : b.pending = some element) :
    ∃ before identifier st after, events = before ++ .call (.tag identifier) st :: after ∧
      (∀ e ∈ after, e.opens? = none) ∧
      b.Shows (htmlName identifier) (after.flatMap Event.given) := by
  obtain ⟨name, rfl⟩ := h
  -- A new builder has nothing pending, so some event of the life began the element.
  rcases Event.last_opens events with none | ⟨before, identifier, st, after, rfl, last⟩
  · rw [pending_afterAll none rfl] at hp
    cases hp
  · refine ⟨before, identifier, st, after, rfl, last, ?_⟩
    rw [afterAll_append]
    exact (Shows.tag _ identifier).afterAll last

end Builder

/-! ## Attributes without an element -/

theorem Attribute.html_eq_empty_iff (a : Attribute) :
    a.html = "" ↔ a.value = .flag false ∨ a.value = .absent := by
  obtain ⟨identifier, value⟩ := a
  cases value with
  | flag set => cases set <;> simp [html, ← String.toList_inj]
  | absent => simp [html]
  | text value => simp [html, ← String.toList_inj]

namespace Builder

/-- There is something to give: a value that is neither false nor absent. -/
theorem html_givenAttributes_ne_empty_iff (given : List (String × AttributeValue)) :
    (Attributes.mk (givenAttributes given)).html ≠ "" ↔
      ∃ a ∈ given, a.2 ≠ .flag false ∧ a.2 ≠ .absent := by
  rw [Ne, Attributes.html_eq_empty]
  simp [givenAttributes, Attribute.html_eq_empty_iff]

/-- Nothing comes of attributes without an element but a report that shows them. -/
theorem giveAttributes_of_not_pending {b : Builder} (h : b.pending = none)
    (given : List (String × AttributeValue)) :
    b.giveAttributes ⟨givenAttributes given⟩ =
      ⟨b, if ∃ a ∈ given, a.2 ≠ .flag false ∧ a.2 ≠ .absent then
          [.attributesIgnored b.name
            (String.ofList (Unicode.trimStart (Attributes.mk (givenAttributes given)).html.toList))]
        else []⟩ := by
  have none : b.pendingTag? = none := by
    rw [pendingTag?, h, Option.bind_none]
  by_cases he : (Attributes.mk (givenAttributes given)).html = ""
  · have silent := mt (html_givenAttributes_ne_empty_iff given).mpr (not_not.mpr he)
    rw [giveAttributes, if_pos he, if_neg silent]
  · have loud := (html_givenAttributes_ne_empty_iff given).mp he
    rw [giveAttributes, if_neg he, none, if_pos loud]

end Builder

/-! ## Attributes in a session -/

namespace Session

open Builder (Event givenAttributes)

/-- **Attributes reach the right start tag.** Every builder of a session has a life, in which the
calls on its variable and the ends of scopes are the events. Whatever the life, a pending element
began with the last event that begins one. At the place that is kept for it stands its start tag,
with all that was given since, in order. Attributes for it change that tag alone and are not
reported. Without a pending element, attributes change nothing, and they are reported just if one is
neither false nor absent. -/
theorem attributes_reach_pending {s : Session} {b : Builder} (hs : s.Reachable) (hb : s.Holds b) :
    b.HasLife ∧
    (∀ name e call u, (Eval.builderCall e).Returns s call u → u.builder? name = some b →
      (s.perform (.call name e)).session.builder? name =
        some (b.after (.call call u.store))) ∧
    (∀ name, s.builder? name = some b →
      (s.act (.leaveScope name)).builder? name = some (b.after .leaveScope)) ∧
    (∀ events, b.Lived events → ∀ element, b.pending = some element →
      ∃ before identifier st after, events = before ++ .call (.tag identifier) st :: after ∧
        (∀ e ∈ after, e.opens? = none) ∧
        (∃ tag, b.fragments[element.position]? = some (.piece (.startTag tag)) ∧
          tag.html = "<" ++ htmlName identifier ++
            (Attributes.mk (after.flatMap Event.given)).html ++ ">") ∧
        ∀ more st, ∃ tag : StartTag,
          tag.html = "<" ++ htmlName identifier ++
            (Attributes.mk (after.flatMap Event.given ++ givenAttributes more)).html ++ ">" ∧
          (BuilderCall.attributes more).run b st =
            { state :=
              ({ b with
                fragments := b.fragments.setIfInBounds element.position (.piece (.startTag tag)) },
              st) }) ∧
    (b.pending = none → ∀ more st,
      (BuilderCall.attributes more).run b st =
        { state := (b, st)
          log :=
            if ∃ a ∈ more, a.2 ≠ .flag false ∧ a.2 ≠ .absent then
              [.attributesIgnored b.name (String.ofList
                (Unicode.trimStart (Attributes.mk (givenAttributes more)).html.toList))]
            else [] }) := by
  refine ⟨hs.hasLife hb, fun _ _ _ _ => hs.builder?_call, fun _ => hs.builder?_leaveScope, ?_,
    ?_⟩
  · intro events lived element hp
    obtain ⟨before, identifier, st, after, rfl, last, shows⟩ := lived.shows hp
    refine ⟨before, identifier, st, after, rfl, last, ?_, ?_⟩
    · obtain ⟨_, tag, standing, named, shown⟩ := shows element hp
      refine ⟨tag, Builder.startTagAt?_eq_some_iff.mp standing, ?_⟩
      rw [StartTag.html, named, shown]
    · intro more st
      obtain ⟨tag, named, shown, hgive⟩ := shows.giveAttributes_eq hp ⟨givenAttributes more⟩
      refine ⟨tag, by rw [StartTag.html, named, shown], ?_⟩
      show Outcome.ofLogged (·, st) (b.giveAttributes ⟨givenAttributes more⟩) = _
      rw [hgive]
      rfl
  · intro hp more st
    show Outcome.ofLogged (·, st) (b.giveAttributes ⟨givenAttributes more⟩) = _
    rw [Builder.giveAttributes_of_not_pending hp more]
    rfl

/-- Between two attributes, text and a placeholder come into the element. -/
def interruptedTag : List Action :=
  [.perform (.create "e" none),
    .perform (.call "e" (.tag "my_div")),
    .perform (.call "e" (.attributes [("data_x", .literal (.text "1"))])),
    .perform (.call "e" (.append (.text (.literal "a < b")))),
    .perform (.call "e" (.place "P")),
    .perform (.call "e" (.attributes [("hidden", .literal (.flag true))]))]

theorem attributes_reach_pending_interrupted :
    (run {} interruptedTag).Reachable ∧
    ∃ b, (run {} interruptedTag).Holds b ∧ b.pending = some ⟨"my-div", 0⟩ ∧
      (b.fragments.toList.map fun | .piece p => p.html | .slot h => h.name) =
        ["<my-div data-x=1 hidden>", "a &lt; b", "P"] ∧
      ∀ more st, ((BuilderCall.attributes more).run b st).log = [] := by
  have reachable : (run {} interruptedTag).Reachable := Reachable.start.run _
  have standing : (run {} interruptedTag).builder? "e" = some
      { name := "E Builder"
        fragments := #[
          .piece (.startTag
            { name := "my-div"
              attributes := ⟨[⟨"data_x", .text "1"⟩, ⟨"hidden", .flag true⟩]⟩ }),
          .piece (.text "a &lt; b"), .slot ⟨"P", 0, true⟩]
        placeholders := { entries := [("P", ⟨"P", 0, true⟩)] }
        stack := { pending := some ⟨"my-div", 0⟩ } } := by
    decide +kernel
  have held := reachable.sound.holds standing
  obtain ⟨⟨events, lived⟩, _, _, reach, _⟩ := attributes_reach_pending reachable held
  refine ⟨reachable, _, held, rfl, by decide +kernel, ?_⟩
  intro more st
  obtain ⟨_, _, _, _, _, _, _, give⟩ := reach events lived _ rfl
  obtain ⟨tag, _, hrun⟩ := give more st
  rw [hrun]

end Session

end Hypertext
