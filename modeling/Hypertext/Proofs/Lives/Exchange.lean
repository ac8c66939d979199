import Hypertext.Proofs.Lives.Pending
import Hypertext.Proofs.Texts.Plain

/-! # Exchanged pieces

Two builders may differ in one row of finished pieces and be the same otherwise. Nothing that happens
to a builder looks at finished pieces, but for the pending start tag. So whatever happens to both,
they go on differing in that row alone, and if its markup is the same they are rendered alike. -/

namespace Hypertext.Builder

variable {xs ys : List Fragment} {b c b' c' : Builder}

/-- A pending element stands in front of the row, or behind it: then its place is counted from the
end of the row. -/
inductive PendingAround (xs ys front back : List Fragment) : Option OpenTag → Option OpenTag → Prop
  | none : PendingAround xs ys front back none none
  | front {element : OpenTag} (h : element.position < front.length) :
      PendingAround xs ys front back (some element) (some element)
  | back {name : String} {n : Nat} (h : n < back.length) :
      PendingAround xs ys front back (some ⟨name, front.length + xs.length + n⟩)
        (some ⟨name, front.length + ys.length + n⟩)

/-- The second builder has the row `ys` where the first one has `xs`. -/
structure Exchanged (xs ys : List Fragment) (b c : Builder) : Prop where
  name : c.name = b.name
  placeholders : c.placeholders = b.placeholders
  scopes : c.stack.scopes = b.stack.scopes
  rows : ∃ front back, b.fragments.toList = front ++ xs ++ back ∧
    c.fragments.toList = front ++ ys ++ back ∧ PendingAround xs ys front back b.pending c.pending

/-! ## Places before and behind the row -/

section

variable {front back : List Fragment} {n : Nat}

theorem getElem?_front (h : n < front.length) : (front ++ xs ++ back)[n]? = front[n]? := by
  rw [List.append_assoc, List.getElem?_append_left h]

theorem set_front (h : n < front.length) (f : Fragment) :
    (front ++ xs ++ back).set n f = front.set n f ++ xs ++ back := by
  rw [List.append_assoc, List.set_append_left _ _ h, List.append_assoc]

theorem getElem?_back : (front ++ xs ++ back)[front.length + xs.length + n]? = back[n]? := by
  rw [← List.length_append, List.getElem?_append_right (by omega), Nat.add_sub_cancel_left]

theorem set_back (f : Fragment) :
    (front ++ xs ++ back).set (front.length + xs.length + n) f =
      front ++ xs ++ back.set n f := by
  rw [← List.length_append, List.set_append_right _ _ (by omega), Nat.add_sub_cancel_left]

end

/-! ## The pending element -/

namespace PendingAround

variable {front back : List Fragment} {p q : Option OpenTag}

theorem extend (h : PendingAround xs ys front back p q) (more : List Fragment) :
    PendingAround xs ys front (back ++ more) p q := by
  cases h with
  | none => exact .none
  | front h => exact .front h
  | back h => exact .back (by rw [List.length_append]; omega)

/-- What is decided by the name of the pending element is the same. -/
theorem bind_name_eq {α : Type} (h : PendingAround xs ys front back p q) (f : String → Option α) :
    q.bind (fun element => f element.name) = p.bind fun element => f element.name := by
  cases h <;> rfl

end PendingAround

namespace Exchanged

theorem impliedEnd (h : Exchanged xs ys b c) : c.stack.impliedEnd = b.stack.impliedEnd := by
  obtain ⟨_, _, _, _, pending⟩ := h.rows
  exact pending.bind_name_eq fun name =>
    if (ElementKind.ofName name).requiresEndTag then some name else none

theorem owed (h : Exchanged xs ys b c) : c.stack.owed = b.stack.owed := by
  rw [TagStack.owed, TagStack.owed, h.impliedEnd, h.scopes]

theorem textKind (h : Exchanged xs ys b c) : c.stack.textKind = b.stack.textKind := by
  obtain ⟨_, _, _, _, pending⟩ := h.rows
  have scopes := h.scopes
  rw [TagStack.textKind, TagStack.textKind, scopes]
  rw [Builder.pending, Builder.pending] at pending
  generalize b.stack.pending = p at pending ⊢
  generalize c.stack.pending = q at pending ⊢
  cases pending <;> rfl

theorem scopeOfPending (h : Exchanged xs ys b c) :
    c.stack.scopeOfPending = b.stack.scopeOfPending := by
  obtain ⟨_, _, _, _, pending⟩ := h.rows
  have owes : c.stack.scopeOfPending.owes = b.stack.scopeOfPending.owes :=
    pending.bind_name_eq fun name => if (ElementKind.ofName name).isVoid then none else some name
  have kind : c.stack.scopeOfPending.kind = b.stack.scopeOfPending.kind := h.textKind
  cases hb : b.stack.scopeOfPending
  cases hc : c.stack.scopeOfPending
  simp_all

/-! ## Steps -/

/-- The same fragments come behind both, and the pending elements stay or are settled. -/
theorem grow (h : Exchanged xs ys b c) (more : List Fragment) (name : c'.name = b'.name)
    (placeholders : c'.placeholders = b'.placeholders)
    (scopes : c'.stack.scopes = b'.stack.scopes)
    (pending : b'.pending = none ∧ c'.pending = none ∨
      b'.pending = b.pending ∧ c'.pending = c.pending)
    (hb : b'.fragments.toList = b.fragments.toList ++ more)
    (hc : c'.fragments.toList = c.fragments.toList ++ more) : Exchanged xs ys b' c' := by
  obtain ⟨front, back, first, second, around⟩ := h.rows
  refine ⟨name, placeholders, scopes, front, back ++ more, ?_, ?_, ?_⟩
  · rw [hb, first, List.append_assoc]
  · rw [hc, second, List.append_assoc]
  · rcases pending with ⟨settled, settled'⟩ | ⟨stays, stays'⟩
    · rw [settled, settled']
      exact .none
    · rw [stays, stays']
      exact around.extend more

theorem push (h : Exchanged xs ys b c) (f : Fragment) : Exchanged xs ys (b.push f) (c.push f) :=
  h.grow [f] h.name h.placeholders h.scopes (.inr ⟨rfl, rfl⟩) (toList_push b f) (toList_push c f)

theorem withPlaceholders (h : Exchanged xs ys b c) (r : Registry) :
    Exchanged xs ys { b with placeholders := r } { c with placeholders := r } :=
  ⟨h.name, rfl, h.scopes, h.rows⟩

theorem pushText (h : Exchanged xs ys b c) (text : String) :
    Exchanged xs ys (b.pushText text) (c.pushText text) := by
  rw [Builder.pushText, Builder.pushText, h.textKind]
  exact h.push _

theorem close (h : Exchanged xs ys b c) : Exchanged xs ys b.close c.close := by
  have second := toList_close c
  rw [h.impliedEnd] at second
  refine h.grow _ ?_ ?_ ?_ (.inl ?_) (toList_close b) second
  · rw [name_close, name_close, h.name]
  · rw [placeholders_close, placeholders_close, h.placeholders]
  · rw [stack_close, stack_close]
    exact h.scopes
  · rw [Builder.pending, Builder.pending, stack_close, stack_close]
    exact ⟨rfl, rfl⟩

theorem tag (h : Exchanged xs ys b c) (identifier : String) :
    Exchanged xs ys (b.tag identifier) (c.tag identifier) := by
  obtain ⟨name, placeholders, scopes, front, back, first, second, _⟩ := h.close
  refine ⟨name, placeholders, scopes, front,
    back ++ [.piece (.startTag { name := htmlName identifier })], ?_, ?_, ?_⟩
  · rw [← List.append_assoc, ← first]
    exact toList_pushPiece b.close _
  · rw [← List.append_assoc, ← second]
    exact toList_pushPiece c.close _
  · have place : b.close.fragments.size = front.length + xs.length + back.length := by
      rw [← Array.length_toList, first, List.length_append, List.length_append]
    have place' : c.close.fragments.size = front.length + ys.length + back.length := by
      rw [← Array.length_toList, second, List.length_append, List.length_append]
    show PendingAround xs ys front _ (some ⟨htmlName identifier, b.close.fragments.size⟩)
      (some ⟨htmlName identifier, c.close.fragments.size⟩)
    rw [place, place']
    exact .back (by rw [List.length_append, List.length_singleton]; omega)

theorem leaveScope (h : Exchanged xs ys b c) : Exchanged xs ys b.leaveScope c.leaveScope := by
  have closed := h.close
  have scopes := closed.scopes
  cases hs : b.close.stack.scopes with
  | nil =>
    rw [hs] at scopes
    simp only [Builder.leaveScope, hs, scopes]
    exact closed
  | cons scope rest =>
    rw [hs] at scopes
    simp only [Builder.leaveScope, hs, scopes]
    refine closed.grow (endTags scope.owes.toList) ?_ ?_ ?_ (.inr ⟨?_, ?_⟩) ?_ ?_
    · rw [name_pushEnds, name_pushEnds]
      exact closed.name
    · rw [placeholders_pushEnds, placeholders_pushEnds]
      exact closed.placeholders
    · rw [stack_pushEnds, stack_pushEnds]
    · rw [Builder.pending, stack_pushEnds]
      rfl
    · rw [Builder.pending, stack_pushEnds]
      rfl
    · exact toList_pushEnds _ _
    · exact toList_pushEnds _ _

/-- Both have the same pending start tag, and can have another one instead. -/
theorem pendingTag?_cases (h : Exchanged xs ys b c) :
    b.pendingTag? = none ∧ c.pendingTag? = none ∨
      ∃ element element' tag, b.pendingTag? = some (element, tag) ∧
        c.pendingTag? = some (element', tag) ∧
        ∀ new, Exchanged xs ys (b.replaceTag element new) (c.replaceTag element' new) := by
  obtain ⟨name, placeholders, scopes, front, back, first, second, around⟩ := h
  -- Wherever the two elements stand, the same fragment stands there, and the same can be put there.
  have step : ∀ element element', b.pending = some element → c.pending = some element' →
      b.fragments.toList[element.position]? = c.fragments.toList[element'.position]? →
      (∀ new, Exchanged xs ys (b.replaceTag element new) (c.replaceTag element' new)) →
      b.pendingTag? = none ∧ c.pendingTag? = none ∨
        ∃ element element' tag, b.pendingTag? = some (element, tag) ∧
          c.pendingTag? = some (element', tag) ∧
          ∀ new, Exchanged xs ys (b.replaceTag element new) (c.replaceTag element' new) := by
    intro element element' hp hq same replaced
    have standing : b.startTagAt? element.position = c.startTagAt? element'.position := by
      rw [Array.getElem?_toList, Array.getElem?_toList] at same
      rw [startTagAt?, startTagAt?, same]
    rw [pendingTag?, pendingTag?, hp, hq, Option.bind_some, Option.bind_some, ← standing]
    cases b.startTagAt? element.position with
    | none => exact .inl ⟨rfl, rfl⟩
    | some tag => exact .inr ⟨element, element', tag, rfl, rfl, replaced⟩
  generalize hp : b.pending = p at around
  generalize hq : c.pending = q at around
  cases around with
  | none =>
    left
    rw [pendingTag?, pendingTag?, hp, hq]
    exact ⟨rfl, rfl⟩
  | @front element inside =>
    refine step element element hp hq ?_ ?_
    · rw [first, second, getElem?_front inside, getElem?_front inside]
    · intro new
      refine ⟨name, placeholders, scopes, front.set element.position (.piece (.startTag new)), back,
        ?_, ?_, ?_⟩
      · rw [replaceTag, Array.toList_setIfInBounds, first, set_front inside]
      · rw [replaceTag, Array.toList_setIfInBounds, second, set_front inside]
      · show PendingAround xs ys _ back b.pending c.pending
        rw [hp, hq]
        exact .front (by rwa [List.length_set])
  | @back _ n inside =>
    refine step _ _ hp hq ?_ ?_
    · rw [first, second, getElem?_back, getElem?_back]
    · intro new
      refine ⟨name, placeholders, scopes, front, back.set n (.piece (.startTag new)), ?_, ?_, ?_⟩
      · rw [replaceTag, Array.toList_setIfInBounds, first, set_back]
      · rw [replaceTag, Array.toList_setIfInBounds, second, set_back]
      · show PendingAround xs ys front _ b.pending c.pending
        rw [hp, hq]
        exact .back (by rwa [List.length_set])

theorem giveAttributes (h : Exchanged xs ys b c) (given : Attributes) :
    Exchanged xs ys (b.giveAttributes given).value (c.giveAttributes given).value := by
  rw [Builder.giveAttributes, Builder.giveAttributes]
  split
  · exact h
  · rcases h.pendingTag?_cases with ⟨none, none'⟩ | ⟨_, _, tag, found, found', replaced⟩
    · rw [none, none']
      exact h
    · rw [found, found']
      exact replaced _

theorem enterScope (h : Exchanged xs ys b c) :
    Exchanged xs ys b.enterScope.value c.enterScope.value := by
  -- Nothing is pending in the scope, so only the rows and the scopes around it are left to be seen.
  have entered : ∀ {b' c'}, Exchanged xs ys b' c' →
      Exchanged xs ys { b' with stack := b.stack.enter } { c' with stack := c.stack.enter } := by
    intro b' c' h'
    obtain ⟨front, back, first, second, _⟩ := h'.rows
    refine ⟨h'.name, h'.placeholders, ?_, front, back, first, second, .none⟩
    show c.stack.scopeOfPending :: c.stack.scopes = b.stack.scopeOfPending :: b.stack.scopes
    rw [h.scopeOfPending, h.scopes]
  rw [Builder.enterScope, Builder.enterScope]
  rcases h.pendingTag?_cases with ⟨none, none'⟩ | ⟨_, _, tag, found, found', replaced⟩
  · rw [none, none']
    exact entered h
  · rw [found, found']
    exact entered (replaced _)

/-! ## Content -/

theorem append (h : Exchanged xs ys b c) (content : Content) (st : Store) :
    Exchanged xs ys (b.append content st).value (c.append content st).value := by
  cases content with
  | empty => exact h
  | text text => exact h.pushText text
  | markup html => exact h.push _
  | snippet snippet =>
    have first := toList_adopt b snippet
    have second := toList_adopt c snippet
    simp only [Builder.append, value_adopt, h.placeholders] at first second ⊢
    exact h.grow snippet.ended h.name rfl h.scopes (.inr ⟨rfl, rfl⟩) first second
  | slot s =>
    simp only [Builder.append, pushSlot, h.placeholders]
    split <;> exact (h.withPlaceholders _).push _

theorem appendAll (h : Exchanged xs ys b c) (contents : List Content) (st : Store) :
    Exchanged xs ys (contents.foldlM (fun (b : Builder) c => b.append c st) b).value
      (contents.foldlM (fun (b : Builder) c => b.append c st) c).value := by
  induction contents generalizing b c with
  | nil => exact h
  | cons content contents ih =>
    rw [List.foldlM_cons, List.foldlM_cons, Logged.value_bind, Logged.value_bind]
    exact ih (h.append content st)

theorem element (h : Exchanged xs ys b c) (identifier text : String) :
    Exchanged xs ys (b.element identifier text) (c.element identifier text) :=
  ((h.tag identifier).pushText text).close

theorem place (h : Exchanged xs ys b c) (name : String) (st : Store) :
    Exchanged xs ys (b.place name st).state.1 (c.place name st).state.1 := by
  rw [Builder.place, Builder.place, h.placeholders]
  split
  · exact h
  · exact (h.withPlaceholders _).push _

theorem placeWith (h : Exchanged xs ys b c) (name : String) (content : Content) (st : Store) :
    Exchanged xs ys (b.placeWith name content st).state.1
      (c.placeWith name content st).state.1 := by
  rw [Builder.placeWith, Builder.placeWith, h.placeholders]
  split
  · exact h
  · dsimp only
    split
    · exact h.withPlaceholders _
    · exact (h.withPlaceholders _).push _

/-! ## Events -/

/-- Every event keeps the difference to the row, unless it leaves nothing at all. -/
theorem after (h : Exchanged xs ys b c) (event : Event) :
    Exchanged xs ys (b.after event) (c.after event) ∨ b.after event = c.after event := by
  cases event with
  | leaveScope => exact .inl h.leaveScope
  | call call st =>
    cases call with
    | tag identifier => exact .inl (h.tag identifier)
    | attributes given => exact .inl (h.giveAttributes _)
    | content content => exact .inl (h.append content st).close
    | contents contents => exact .inl (h.appendAll contents st).close
    | append content => exact .inl (h.append content st)
    | close => exact .inl h.close
    | script code => exact .inl (h.element "script" code)
    | style rules => exact .inl (h.element "style" rules)
    | comment text => exact .inl (h.push _)
    | enterScope => exact .inl h.enterScope
    | place name => exact .inl (h.place name st)
    | placeWith name content => exact .inl (h.placeWith name content st)
    | set | clear => exact .inl h
    | reset =>
      right
      show b.reset = c.reset
      rw [reset, reset, h.name]

theorem afterAll (h : Exchanged xs ys b c) (events : List Event) :
    Exchanged xs ys (b.afterAll events) (c.afterAll events) ∨
      b.afterAll events = c.afterAll events := by
  induction events generalizing b c with
  | nil => exact .inl h
  | cons event events ih =>
    rcases h.after event with kept | same
    · exact ih kept
    · right
      show (b.after event).afterAll events = (c.after event).afterAll events
      rw [same]

/-! ## Rendering -/

variable {ps qs : List Piece}

/-- Rows with the same markup make no difference. -/
theorem render_eq (h : Exchanged (ps.map .piece) (qs.map .piece) b c)
    (same : Piece.render ps = Piece.render qs) (st : Store) : c.render st = b.render st := by
  have hm := Store.marks_walkSlot st st.depthBound
  obtain ⟨front, back, first, second, _⟩ := h.rows
  have split : b.ended = front ++ ps.map .piece ++ (back ++ endTags b.stack.owed) := by
    rw [ended, first, List.append_assoc]
  have split' : c.ended = front ++ qs.map .piece ++ (back ++ endTags b.stack.owed) := by
    rw [ended, second, List.append_assoc, h.owed]
  apply Logged.ext
  · simp [Builder.render, Walk.logged, Walk.html, flatten_eq_walk, split, split',
      Store.walkFragments_append hm, Store.walkFragments_pieces, same]
  · simp [Builder.render, Walk.logged, flatten_eq_walk, split, split',
      Store.walkFragments_append hm, Store.walkFragments_pieces]

theorem render_afterAll_eq (h : Exchanged (ps.map .piece) (qs.map .piece) b c)
    (same : Piece.render ps = Piece.render qs) (events : List Event) (st : Store) :
    (c.afterAll events).render st = (b.afterAll events).render st := by
  rcases h.afterAll events with kept | equal
  · exact kept.render_eq same st
  · rw [equal]

end Exchanged

/-! ## Texts cut in several ways -/

/-- What is pending stands among the fragments. -/
theorem HasLife.pending_lt (h : b.HasLife) {element : OpenTag} (hp : b.pending = some element) :
    element.position < b.fragments.size := by
  obtain ⟨events, lived⟩ := h
  obtain ⟨_, _, _, _, _, _, shown⟩ := lived.shows hp
  obtain ⟨_, tag, standing, _⟩ := shown element hp
  exact (Array.getElem?_eq_some_iff.mp (startTagAt?_eq_some_iff.mp standing)).1

/-- Rows put behind the fragments of one builder can be exchanged. -/
theorem HasLife.exchanged (h : b.HasLife) (xs ys : List Fragment) :
    Exchanged xs ys { b with fragments := b.fragments ++ xs.toArray }
      { b with fragments := b.fragments ++ ys.toArray } := by
  refine ⟨rfl, rfl, rfl, b.fragments.toList, [], by simp, by simp, ?_⟩
  show PendingAround xs ys b.fragments.toList [] b.pending b.pending
  cases hp : b.pending with
  | none => exact .none
  | some element =>
    have inside := h.pending_lt hp
    rw [← Array.length_toList] at inside
    exact .front inside

/-- The texts as they are written in the builder, one behind the other. -/
def writtenTexts (b : Builder) (texts : List String) : List Piece :=
  texts.map fun text => .text (escapeFor b.stack.textKind text)

theorem pushTexts_eq (b : Builder) (texts : List String) :
    texts.foldl pushText b =
      { b with fragments := b.fragments ++ ((b.writtenTexts texts).map Fragment.piece).toArray } := by
  induction texts generalizing b with
  | nil => simp [writtenTexts]
  | cons text texts ih =>
    rw [List.foldl_cons, ih]
    simp [writtenTexts, pushText, pushPiece, push]

/-- Where text is not raw, the texts are written as the one that they join to. -/
theorem render_writtenTexts (h : ¬ ElementKind.Raw b.stack.textKind) (texts : List String) :
    Piece.render (b.writtenTexts texts) = Escape.escapeText (String.join texts) := by
  apply String.toList_inj.mp
  simp [writtenTexts, escapeFor_of_not_raw h, Piece.html, String.toList_join, List.flatMap_map,
    List.flatMap_assoc]

/-- The text comes to the builder. -/
def Event.text (st : Store) (text : String) : Event :=
  .call (.append (.text text)) st

theorem afterAll_texts (b : Builder) (st : Store) (texts : List String) :
    b.afterAll (texts.map (Event.text st)) = texts.foldl pushText b := by
  rw [afterAll, List.foldl_map]
  rfl

/-- However a text is cut, the builder that it comes to is rendered alike, at once and after
whatever comes later, unless the text is raw. -/
theorem HasLife.render_texts (h : b.HasLife) (hr : ¬ ElementKind.Raw b.stack.textKind)
    (texts : List String) (st : Store) (events : List Event) (later : Store) :
    (b.afterAll (texts.map (Event.text st) ++ events)).render later =
      (b.afterAll (Event.text st (String.join texts) :: events)).render later := by
  have cut : b.afterAll (texts.map (Event.text st)) =
      { b with fragments := b.fragments ++ ((b.writtenTexts texts).map Fragment.piece).toArray } := by
    rw [afterAll_texts, pushTexts_eq]
  have whole : b.afterAll [Event.text st (String.join texts)] =
      { b with
        fragments := b.fragments ++
          ((b.writtenTexts [String.join texts]).map Fragment.piece).toArray } := by
    rw [← pushTexts_eq]
    rfl
  have same : Piece.render (b.writtenTexts [String.join texts]) =
      Piece.render (b.writtenTexts texts) := by
    rw [render_writtenTexts hr, render_writtenTexts hr]
    simp [String.join]
  rw [← List.singleton_append, afterAll_append, afterAll_append, cut, whole]
  exact (h.exchanged _ _).render_afterAll_eq same events later

end Hypertext.Builder
