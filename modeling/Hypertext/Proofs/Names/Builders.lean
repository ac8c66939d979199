import Hypertext.Proofs.Names.Registries

/-! # Names of embedded placeholders

A builder's fragments and its registry are changed by separate steps. As long as only placeholders
are embedded, the two agree: a name is filed for the slot that was embedded last under it. -/

namespace Hypertext

/-! ## Handles among fragments -/

/-- The handles that stand among the fragments. -/
def handlesOf (fs : List Fragment) : List Handle :=
  fs.filterMap fun
    | .piece _ => none
    | .slot h => some h

@[simp] theorem handlesOf_nil : handlesOf [] = [] := rfl

@[simp] theorem handlesOf_piece (p : Piece) (fs : List Fragment) :
    handlesOf (.piece p :: fs) = handlesOf fs := rfl

@[simp] theorem handlesOf_slot (h : Handle) (fs : List Fragment) :
    handlesOf (.slot h :: fs) = h :: handlesOf fs := rfl

@[simp] theorem handlesOf_append (fs gs : List Fragment) :
    handlesOf (fs ++ gs) = handlesOf fs ++ handlesOf gs :=
  List.filterMap_append

@[simp] theorem handlesOf_endTags (names : List String) :
    handlesOf (Builder.endTags names) = [] := by
  induction names with
  | nil => rfl
  | cons n names ih => rw [Builder.endTags_cons, handlesOf_piece, ih]

theorem slotsOf_eq_map (fs : List Fragment) : slotsOf fs = (handlesOf fs).map Handle.slot := by
  induction fs with
  | nil => rfl
  | cons f fs ih => cases f <;> simp [ih]

theorem mem_handlesOf {fs : List Fragment} {h : Handle} : h ∈ handlesOf fs ↔ .slot h ∈ fs := by
  induction fs with
  | nil => simp
  | cons f fs ih => cases f <;> simp [ih]

/-- A piece takes the place of a piece. -/
theorem handlesOf_set {fs : List Fragment} {i : Nat} {p : Piece} (h : fs[i]? = some (.piece p))
    (q : Piece) : handlesOf (fs.set i (.piece q)) = handlesOf fs := by
  induction fs generalizing i with
  | nil => rfl
  | cons f fs ih =>
    cases i with
    | zero =>
      cases h
      rfl
    | succ i => cases f <;> simp [ih h]

/-- The handle that stands last among those of the name. -/
def lastNamed? (name : String) (fs : List Fragment) : Option Handle :=
  (handlesOf fs).reverse.find? (·.name == name)

theorem lastNamed?_append (name : String) (fs gs : List Fragment) :
    lastNamed? name (fs ++ gs) = (lastNamed? name gs).or (lastNamed? name fs) := by
  simp [lastNamed?]

theorem lastNamed?_slot (name : String) (h : Handle) :
    lastNamed? name [.slot h] = if name = h.name then some h else none := by
  by_cases hn : name = h.name
  · simp [lastNamed?, hn]
  · simp [lastNamed?, hn, Ne.symm hn]

/-- The handle is last when no other one of its name comes behind it. -/
theorem lastNamed?_eq_some_iff {name : String} {fs : List Fragment} {h : Handle} :
    lastNamed? name fs = some h ↔
      ∃ before after, fs = before ++ .slot h :: after ∧ h.name = name ∧
        ∀ g, .slot g ∈ after → g.name ≠ name := by
  constructor
  · induction fs with
    | nil => intro hl; cases hl
    | cons f fs ih =>
      intro hl
      rw [← List.singleton_append, lastNamed?_append] at hl
      rcases Option.or_eq_some_iff.mp hl with hl | ⟨absent, hl⟩
      · obtain ⟨before, after, rfl, named, last⟩ := ih hl
        exact ⟨f :: before, after, rfl, named, last⟩
      · cases f with
        | piece p => cases hl
        | slot g =>
          rw [lastNamed?_slot] at hl
          split at hl
          · rename_i hn
            cases hl
            refine ⟨[], fs, rfl, hn.symm, ?_⟩
            intro k hk
            have := List.find?_eq_none.mp absent k (List.mem_reverse.mpr (mem_handlesOf.mpr hk))
            simpa using this
          · cases hl
  · rintro ⟨before, after, rfl, named, last⟩
    have absent : lastNamed? name after = none := by
      refine List.find?_eq_none.mpr ?_
      intro g hg
      simpa using last g (mem_handlesOf.mp (List.mem_reverse.mp hg))
    rw [← List.singleton_append, lastNamed?_append, lastNamed?_append, absent, lastNamed?_slot,
      if_pos named.symm]
    rfl

/-! ## Builders -/

/-- All embedded handles are placeholders, and each name is filed for the last slot of that name. -/
structure Builder.Named (b : Builder) : Prop where
  filed : b.placeholders.Filed
  known : ∀ h ∈ b.placeholders.handles, h.isPlaceholder = true
  embedded : ∀ h ∈ handlesOf b.fragments.toList, h.isPlaceholder = true
  last : ∀ name, b.placeholders.slot? name =
    (lastNamed? name b.fragments.toList).map Handle.slot

namespace Builder.Named

variable {b c snippet : Builder} {h : Handle}

theorem new (name : String) : ({ name } : Builder).Named where
  filed := .empty
  known _ hh := nomatch hh
  embedded _ hh := nomatch hh
  last _ := rfl

/-- A change that brings no handles keeps the names. -/
theorem of_eq (hb : b.Named) (hf : handlesOf c.fragments.toList = handlesOf b.fragments.toList)
    (hp : c.placeholders = b.placeholders) : c.Named where
  filed := hp ▸ hb.filed
  known := hp ▸ hb.known
  embedded := hf ▸ hb.embedded
  last name := by rw [hp, lastNamed?, hf]; exact hb.last name

theorem of_append (hb : b.Named) {more : List Fragment} (hm : handlesOf more = [])
    (hf : c.fragments.toList = b.fragments.toList ++ more) (hp : c.placeholders = b.placeholders) :
    c.Named :=
  hb.of_eq (by rw [hf, handlesOf_append, hm, List.append_nil]) hp

theorem pushPiece (hb : b.Named) (p : Piece) : (b.pushPiece p).Named :=
  hb.of_append rfl (toList_pushPiece b p) rfl

theorem close (hb : b.Named) : b.close.Named :=
  hb.of_append (handlesOf_endTags _) (toList_close b) (placeholders_close b)

theorem tag (hb : b.Named) (identifier : String) : (b.tag identifier).Named :=
  hb.of_append (by simp) (toList_tag b identifier) (placeholders_tag b identifier)

theorem leaveScope (hb : b.Named) : b.leaveScope.Named :=
  hb.of_append (handlesOf_endTags _) (toList_leaveScope b) (placeholders_leaveScope b)

theorem snapshot (hb : b.Named) : b.snapshot.Named :=
  hb.of_append (handlesOf_endTags _) (toList_pushEnds b b.stack.owed) (placeholders_snapshot b)

theorem element (hb : b.Named) (identifier text : String) : (b.element identifier text).Named :=
  ((hb.tag identifier).pushPiece _).close

theorem replaceTag (hb : b.Named) {element : OpenTag} {old : StartTag}
    (h : b.startTagAt? element.position = some old) (tag : StartTag) :
    (b.replaceTag element tag).Named := by
  refine hb.of_eq ?_ rfl
  unfold startTagAt? at h
  split at h
  · rename_i hat
    rw [← Array.getElem?_toList] at hat
    simp only [Builder.replaceTag, Array.toList_setIfInBounds, handlesOf_set hat]
  · cases h

theorem giveAttributes (hb : b.Named) (given : Attributes) :
    (b.giveAttributes given).value.Named := by
  unfold Builder.giveAttributes
  split
  · exact hb
  · split
    · rename_i h
      exact hb.replaceTag (startTagAt?_of_pendingTag? h) _
    · exact hb

theorem enterScope (hb : b.Named) : b.enterScope.value.Named := by
  unfold Builder.enterScope
  cases h : b.pendingTag? with
  | none => exact hb.of_eq rfl rfl
  | some found => exact (hb.replaceTag (startTagAt?_of_pendingTag? h) _).of_eq rfl rfl

/-! ## Embedding -/

/-- A placeholder is embedded, and its name is filed for it. -/
theorem push_slot (hb : b.Named) (hp : h.isPlaceholder = true) {r : Registry} (hr : r.Filed)
    (hk : ∀ g ∈ r.handles, g = h ∨ g ∈ b.placeholders.handles)
    (hs : ∀ name, r.slot? name = if name = h.name then some h.slot else b.placeholders.slot? name) :
    ({ b with placeholders := r }.push (.slot h)).Named where
  filed := hr
  known g hg := by
    rcases hk g hg with rfl | hg
    · exact hp
    · exact hb.known g hg
  embedded g hg := by
    rw [toList_push, handlesOf_append] at hg
    rcases List.mem_append.mp hg with hg | hg
    · exact hb.embedded g hg
    · rw [List.mem_singleton.mp hg]
      exact hp
  last name := by
    rw [placeholders_push, hs, toList_push, lastNamed?_append, lastNamed?_slot]
    split
    · rfl
    · exact hb.last name

theorem insert (hb : b.Named) (hp : h.isPlaceholder = true) :
    ({ b with placeholders := b.placeholders.insert h.name h }.push (.slot h)).Named :=
  hb.push_slot hp (hb.filed.insert h) (fun _ => Registry.mem_handles_insert)
    (Registry.slot?_insert _ _ _)

theorem pushSlot (hb : b.Named) (hp : h.isPlaceholder = true) (st : Store) :
    (b.pushSlot h st).value.Named := by
  unfold Builder.pushSlot
  rw [if_pos hp]
  exact hb.push_slot hp (hb.filed.adopt h) (fun _ => Registry.mem_handles_adopt)
    (Registry.slot?_adopt _ _)

/-- What a snippet brings comes last, and so do its names. -/
theorem adopt (hb : b.Named) (hs : snippet.Named) : (b.adopt snippet).value.Named := by
  have fragments : handlesOf (b.adopt snippet).value.fragments.toList =
      handlesOf (b.fragments.toList ++ snippet.fragments.toList) := by
    rw [toList_adopt, ended]
    simp
  have placeholders : (b.adopt snippet).value.placeholders =
      (b.placeholders.merge snippet.placeholders).value := by
    rw [value_adopt]
  constructor
  · rw [placeholders]
    exact hb.filed.adoptAll _
  · rw [placeholders]
    intro g hg
    rcases Registry.mem_handles_merge hg with hg | hg
    · exact hb.known g hg
    · exact hs.known g hg
  · rw [fragments, handlesOf_append]
    intro g hg
    rcases List.mem_append.mp hg with hg | hg
    · exact hb.embedded g hg
    · exact hs.embedded g hg
  · intro name
    rw [placeholders, Registry.slot?_merge hs.filed, hb.last, hs.last, ← Option.map_or,
      ← lastNamed?_append, lastNamed?, ← fragments]
    rfl

/-! ## Names -/

/-- The names are those of the embedded placeholders. -/
theorem mem_names_iff (hb : b.Named) (name : String) :
    name ∈ b.placeholders.names ↔
      ∃ h, .slot h ∈ b.fragments.toList ∧ h.isPlaceholder = true ∧ h.name = name := by
  rw [Registry.mem_names_iff, hb.last, Option.isSome_map, lastNamed?, List.find?_isSome]
  constructor
  · rintro ⟨h, hm, hn⟩
    have hm := List.mem_reverse.mp hm
    exact ⟨h, mem_handlesOf.mp hm, hb.embedded h hm, by simpa using hn⟩
  · rintro ⟨h, hm, _, hn⟩
    exact ⟨h, List.mem_reverse.mpr (mem_handlesOf.mpr hm), by simpa using hn⟩

/-- The handle that is filed is the one that was embedded last. -/
theorem find?_eq (hb : b.Named) (name : String) :
    b.placeholders.find? name = lastNamed? name b.fragments.toList := by
  have last := hb.last name
  unfold Registry.slot? at last
  cases hf : b.placeholders.find? name with
  | none =>
    rw [hf] at last
    exact (Option.map_eq_none_iff.mp last.symm).symm
  | some h =>
    rw [hf] at last
    obtain ⟨g, hg, same⟩ := Option.map_eq_some_iff.mp last.symm
    have hm : h ∈ b.placeholders.handles := by
      rw [hb.filed.find?_eq] at hf
      exact List.mem_of_find?_eq_some hf
    have hn : h.name = name := by
      rw [hb.filed.find?_eq] at hf
      simpa using List.find?_some hf
    have hgn : g.name = name := by simpa using List.find?_some hg
    have hgp := hb.embedded g (List.mem_reverse.mp (List.mem_of_find?_eq_some hg))
    have hhp := hb.known h hm
    rw [hg]
    congr 1
    cases g
    cases h
    simp_all

/-- By a name, the handle is got that was embedded last under it. -/
theorem placeholder_eq_ok_iff (hb : b.Named) {name : String} :
    b.placeholder name = .ok h ↔
      ∃ before after, b.fragments.toList = before ++ .slot h :: after ∧ h.name = name ∧
        ∀ g, .slot g ∈ after → g.name ≠ name := by
  rw [← lastNamed?_eq_some_iff, ← hb.find?_eq, Builder.placeholder]
  cases b.placeholders.find? name <;> simp

end Builder.Named

/-! ## Content -/

/-- The content is no handle of a shared builder, and a snippet has its names in order. -/
def Content.Named : Content → Prop
  | .slot h => h.isPlaceholder = true
  | .snippet b => b.Named
  | .empty | .text _ | .markup _ => True

namespace Builder.Named

variable {b : Builder} {c : Content}

theorem append (hb : b.Named) (hc : c.Named) (st : Store) : (b.append c st).value.Named := by
  cases c with
  | empty => exact hb
  | text text => exact hb.pushPiece _
  | markup html => exact hb.pushPiece _
  | snippet snippet => exact hb.adopt hc
  | slot h => exact hb.pushSlot hc st

theorem content (hb : b.Named) (hc : c.Named) (st : Store) : (b.content c st).value.Named :=
  (hb.append hc st).close

theorem contents {cs : List Content} (hb : b.Named) (hc : ∀ c ∈ cs, c.Named) (st : Store) :
    (b.contents cs st).value.Named := by
  refine close ?_
  exact Logged.foldlM_induction hb fun c hm _ hb => hb.append (hc c hm) st

/-- A builder that knows no handles. -/
theorem of_within_zero (hb : b.Within 0) : b.Named := by
  have fragments : handlesOf b.fragments.toList = [] := by
    refine List.eq_nil_iff_forall_not_mem.mpr ?_
    intro h hm
    refine Nat.not_lt_zero h.slot (hb.slots _ ?_)
    rw [slots, slotsOf_eq_map]
    exact List.mem_map_of_mem hm
  have placeholders : b.placeholders.entries = [] := by
    refine List.eq_nil_iff_forall_not_mem.mpr ?_
    intro e he
    exact Nat.not_lt_zero e.2.slot (hb.placeholders e.2 (List.mem_map_of_mem he))
  exact (new b.name).of_eq fragments (congrArg Registry.mk placeholders)

end Builder.Named

end Hypertext
