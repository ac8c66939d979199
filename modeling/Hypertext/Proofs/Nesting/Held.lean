import Hypertext.Proofs.Nesting.Builders

/-! # Elements held open

A start tag says whether a scope was opened on its element. It says so from the moment at which the
scope is opened, wherever it is copied to, and no other operation has a say in it. -/

namespace Hypertext

/-- The fragment is a start tag whose element was held open by a scope. -/
def Fragment.isHeld : Fragment → Bool
  | .piece (.startTag tag) => tag.heldOpen
  | .piece (.endTag _) | .piece (.text _) | .slot _ => false

namespace Builder

/-- The start tag at the place says that its element was held open. -/
def isHeld (b : Builder) (i : Nat) : Bool :=
  b.fragments.toList[i]?.any Fragment.isHeld

variable {b c : Builder} {i : Nat}

theorem isHeld_endTags (names : List String) : ∀ f ∈ endTags names, f.isHeld = false := by
  intro f hf
  obtain ⟨_, _, rfl⟩ := List.mem_map.mp hf
  rfl

/-- Fragments that come behind change nothing for those before them. -/
theorem any_isHeld_append (fs : List Fragment) {more : List Fragment}
    (hm : ∀ f ∈ more, f.isHeld = false) (i : Nat) :
    (fs ++ more)[i]?.any Fragment.isHeld = fs[i]?.any Fragment.isHeld := by
  rcases Nat.lt_or_ge i fs.length with hi | hi
  · rw [List.getElem?_append_left hi]
  · rw [List.getElem?_append_right hi, List.getElem?_eq_none hi]
    cases hg : more[i - fs.length]? with
    | none => rfl
    | some f => simpa using hm f (List.mem_of_getElem? hg)

theorem isHeld_of_append {more : List Fragment}
    (hf : c.fragments.toList = b.fragments.toList ++ more)
    (hm : ∀ f ∈ more, f.isHeld = false) (i : Nat) : c.isHeld i = b.isHeld i := by
  rw [isHeld, hf, any_isHeld_append _ hm, isHeld]

theorem isHeld_replaceTag {element : OpenTag} {f : Fragment} {before after : List Fragment}
    (hf : b.fragments.toList = before ++ f :: after) (hpos : element.position = before.length)
    (tag : StartTag) (i : Nat) :
    (b.replaceTag element tag).isHeld i =
      if i = element.position then tag.heldOpen else b.isHeld i := by
  have hset : b.fragments.toList.set before.length (.piece (.startTag tag)) =
      before ++ .piece (.startTag tag) :: after := by
    rw [hf]
    simp
  rw [isHeld, isHeld, toList_replaceTag hf hpos, ← hset, List.getElem?_set, hpos]
  split
  · have hlen : before.length < b.fragments.toList.length := by simp [hf]
    rw [if_pos hlen]
    simp [Fragment.isHeld, *]
  · simp [Ne.symm ‹_›]

/-- What stands in `b` stands in `c` at the same place, and was held open if it was before. -/
structure KeepsHeld (b c : Builder) : Prop where
  size : b.fragments.size ≤ c.fragments.size
  isHeld : ∀ i < b.fragments.size, c.isHeld i = b.isHeld i

/-- Whether elements are held open is for scopes to say: a scope holds the pending element open, a
new element is not held open, a copied one was held open if it was before, and an element that is
there is held open by nothing else, whichever call comes to the builder. -/
structure HeldByScopes (b : Builder) : Prop where
  enterScope : ∀ i, b.enterScope.value.isHeld i = (b.isHeld i || b.pending.any (·.position == i))
  tag : ∀ identifier i, (b.tag identifier).isHeld i = b.isHeld i
  adopt : ∀ host i, (Builder.adopt host b).value.isHeld i =
    if i < host.fragments.size then host.isHeld i else b.isHeld (i - host.fragments.size)
  giveAttributes : ∀ given i, (b.giveAttributes given).value.isHeld i = b.isHeld i
  endings : ∀ c ∈ [b.close, b.leaveScope, b.snapshot], ∀ i, c.isHeld i = b.isHeld i
  calls : ∀ (call : BuilderCall Content AttributeValue String) (st : Store),
    call ≠ .enterScope → call ≠ .reset → KeepsHeld b (call.run b st).state.1

theorem isHeld_adopt (host b : Builder) (i : Nat) : (host.adopt b).value.isHeld i =
    if i < host.fragments.size then host.isHeld i else b.isHeld (i - host.fragments.size) := by
  rw [isHeld, toList_adopt, ← Array.length_toList]
  split
  · rename_i hi
    rw [List.getElem?_append_left hi, isHeld]
  · rename_i hi
    rw [List.getElem?_append_right (Nat.le_of_not_lt hi), ended,
      any_isHeld_append _ (isHeld_endTags _), isHeld]

theorem isHeld_giveAttributes (h : b.Nests) (given : Attributes) (i : Nat) :
    (b.giveAttributes given).value.isHeld i = b.isHeld i := by
  unfold Builder.giveAttributes
  split
  · rfl
  · cases h with
    | settled hp hs => simp only [pendingTag?, Builder.pending, hp, Option.bind_none]
    | pending element tag before after hp hf hpos hname hheld hs ha =>
      have hat := startTagAt?_of_toList hf
      simp only [pendingTag?, Builder.pending, hp, Option.bind_some, hpos, hat, Option.map_some]
      rw [isHeld_replaceTag hf hpos]
      split
      · rename_i hi
        rw [isHeld, hi, hpos, hf]
        simp [Fragment.isHeld]
      · rfl

theorem isHeld_enterScope (h : b.Nests) (i : Nat) :
    b.enterScope.value.isHeld i = (b.isHeld i || b.pending.any (·.position == i)) := by
  unfold Builder.enterScope
  cases h with
  | settled hp hs =>
    simp only [pendingTag?, Builder.pending, hp, Option.bind_none, Option.any_none, Bool.or_false]
    rfl
  | pending element tag before after hp hf hpos hname hheld hs ha =>
    have hat := startTagAt?_of_toList hf
    simp only [pendingTag?, Builder.pending, hp, Option.bind_some, hpos, hat, Option.map_some,
      Option.any_some]
    refine (isHeld_replaceTag hf hpos _ i).trans ?_
    rw [hpos]
    split
    · simp [*]
    · simp [Ne.symm ‹_›]

theorem isHeld_tag (b : Builder) (identifier : String) (i : Nat) :
    (b.tag identifier).isHeld i = b.isHeld i := by
  refine isHeld_of_append (toList_tag b identifier) ?_ i
  intro f hf
  rcases List.mem_append.mp hf with hf | hf
  · exact isHeld_endTags _ f hf
  · rw [List.mem_singleton.mp hf, Fragment.isHeld]

/-! ## Calls -/

namespace KeepsHeld

theorem refl (b : Builder) : KeepsHeld b b :=
  ⟨Nat.le_refl _, fun _ _ => rfl⟩

theorem trans {d : Builder} (h : KeepsHeld b c) (h' : KeepsHeld c d) : KeepsHeld b d :=
  ⟨Nat.le_trans h.size h'.size, fun i hi =>
    (h'.isHeld i (Nat.lt_of_lt_of_le hi h.size)).trans (h.isHeld i hi)⟩

theorem of_append {more : List Fragment} (hf : c.fragments.toList = b.fragments.toList ++ more) :
    KeepsHeld b c where
  size := by
    rw [← Array.length_toList, ← Array.length_toList, hf, List.length_append]
    exact Nat.le_add_right _ _
  isHeld i hi := by
    rw [Builder.isHeld, hf, List.getElem?_append_left hi, Builder.isHeld]

theorem close (b : Builder) : KeepsHeld b b.close :=
  .of_append (toList_close b)

theorem append (b : Builder) (c : Content) (st : Store) : KeepsHeld b (b.append c st).value := by
  obtain ⟨more, appended⟩ := exists_append b c st
  exact .of_append appended

theorem contents (b : Builder) (cs : List Content) (st : Store) :
    KeepsHeld b (b.contents cs st).value := by
  refine trans ?_ (.close _)
  exact Logged.foldlM_induction (.refl b) fun c _ d kept => kept.trans (append d c st)

theorem element (b : Builder) (identifier text : String) :
    KeepsHeld b (b.element identifier text) := by
  have tagged : KeepsHeld b (b.tag identifier) := .of_append (toList_tag b identifier)
  have filled : KeepsHeld (b.tag identifier) ((b.tag identifier).pushText text) :=
    .of_append (toList_pushPiece _ _)
  exact (tagged.trans filled).trans (.close _)

theorem giveAttributes (h : b.Nests) (given : Attributes) :
    KeepsHeld b (b.giveAttributes given).value where
  size := by
    unfold Builder.giveAttributes
    split
    · exact Nat.le_refl _
    · split <;> simp [replaceTag]
  isHeld i _ := isHeld_giveAttributes h given i

theorem place (b : Builder) (name : String) (st : Store) :
    KeepsHeld b (b.place name st).state.1 := by
  rcases b.place_cases name st with ⟨e, _, hrun⟩ | ⟨d, _, hrun⟩
  · rw [hrun]
    exact .refl b
  · rw [hrun]
    exact .of_append (toList_push _ _)

theorem placeWith (b : Builder) (name : String) (c : Content) (st : Store) :
    KeepsHeld b (b.placeWith name c st).state.1 := by
  rcases b.placeWith_cases name c st with ⟨e, _, hrun⟩ | ⟨d, _, _, hb | hb⟩
  · rw [hrun]
    exact .refl b
  · rw [hb]
    exact .of_append (List.append_nil _).symm
  · rw [hb]
    exact .of_append (toList_push _ _)

theorem run (h : b.Nests) {call : BuilderCall Content AttributeValue String} (st : Store)
    (he : call ≠ .enterScope) (hr : call ≠ .reset) : KeepsHeld b (call.run b st).state.1 := by
  cases call with
  | tag identifier => exact .of_append (toList_tag b identifier)
  | attributes given => exact giveAttributes h _
  | content c => exact (append b c st).trans (.close _)
  | contents cs => exact contents b cs st
  | append c => exact append b c st
  | close => exact .close b
  | script code => exact element b "script" code
  | style rules => exact element b "style" rules
  | comment text => exact .of_append (toList_pushPiece b _)
  | enterScope => exact absurd rfl he
  | place name => exact place b name st
  | placeWith name c => exact placeWith b name c st
  | set name c => exact .refl b
  | clear name => exact .refl b
  | reset => exact absurd rfl hr

end KeepsHeld

theorem Nests.heldByScopes (h : b.Nests) : b.HeldByScopes where
  enterScope := isHeld_enterScope h
  tag := isHeld_tag b
  adopt host := isHeld_adopt host b
  giveAttributes := isHeld_giveAttributes h
  endings c hc := by
    simp only [List.mem_cons, List.not_mem_nil, or_false] at hc
    rcases hc with rfl | rfl | rfl
    · exact isHeld_of_append (toList_close b) (isHeld_endTags _)
    · exact isHeld_of_append (toList_leaveScope b) (isHeld_endTags _)
    · exact isHeld_of_append (toList_pushEnds b _) (isHeld_endTags _)
  calls _ st he hr := KeepsHeld.run h st he hr

end Builder

end Hypertext
