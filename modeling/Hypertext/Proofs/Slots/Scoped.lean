import Hypertext.Proofs.Builder.Made
import Hypertext.Proofs.Slots.Acyclic

/-! # Handles refer to slots

The handles that a builder knows, those of its placeholders and those among its fragments, refer to
slots that there are. Calls keep it so, and they leave alone what is being edited. -/

namespace Hypertext

/-! ## Registries -/

namespace Registry

variable {r other : Registry} {g h : Handle} {name : String}

theorem mem_handles_of_find? (hf : r.find? name = some h) : h ∈ r.handles := by
  obtain ⟨before, after, he, _⟩ := List.lookup_eq_some_iff.mp hf
  rw [handles, he]
  simp

theorem mem_fileEntry {e : String × Handle} {es : List (String × Handle)}
    (he : e ∈ fileEntry name h es) : e = (name, h) ∨ e ∈ es := by
  induction es with
  | nil => exact .inl (List.mem_singleton.mp he)
  | cons f es ih =>
    rw [fileEntry] at he
    split at he
    · exact (List.mem_cons.mp he).imp_right (List.mem_cons_of_mem _)
    · rcases List.mem_cons.mp he with he | he
      · exact .inr (he ▸ List.mem_cons_self)
      · exact (ih he).imp_right (List.mem_cons_of_mem _)

theorem mem_handles_insert (hg : g ∈ (r.insert name h).handles) : g = h ∨ g ∈ r.handles := by
  obtain ⟨e, he, rfl⟩ := List.mem_map.mp hg
  rcases mem_fileEntry he with rfl | he
  · exact .inl rfl
  · exact .inr (List.mem_map_of_mem he)

theorem mem_handles_adopt (hg : g ∈ (r.adopt h).value.handles) : g = h ∨ g ∈ r.handles := by
  unfold adopt at hg
  split at hg
  · exact mem_handles_insert hg
  · split at hg
    · exact .inr hg
    · exact mem_handles_insert hg

theorem mem_handles_merge (hg : g ∈ (r.merge other).value.handles) :
    g ∈ r.handles ∨ g ∈ other.handles := by
  unfold merge at hg
  generalize other.handles = hs at hg ⊢
  induction hs generalizing r with
  | nil => exact .inl hg
  | cons h hs ih =>
    rw [List.foldlM_cons, Logged.value_bind] at hg
    rcases ih hg with hg | hg
    · rcases mem_handles_adopt hg with rfl | hg
      · exact .inr List.mem_cons_self
      · exact .inl hg
    · exact .inr (List.mem_cons_of_mem _ hg)

/-! What is true of the handles that come in stays true of all handles. -/

section

variable {p : Handle → Prop}

theorem forall_handles_insert (hr : ∀ g ∈ r.handles, p g) (hh : p h) (name : String) :
    ∀ g ∈ (r.insert name h).handles, p g := by
  intro g hg
  rcases mem_handles_insert hg with rfl | hg
  · exact hh
  · exact hr g hg

theorem forall_handles_adopt (hr : ∀ g ∈ r.handles, p g) (hh : p h) :
    ∀ g ∈ (r.adopt h).value.handles, p g := by
  intro g hg
  rcases mem_handles_adopt hg with rfl | hg
  · exact hh
  · exact hr g hg

theorem forall_handles_merge (hr : ∀ g ∈ r.handles, p g) (ho : ∀ g ∈ other.handles, p g) :
    ∀ g ∈ (r.merge other).value.handles, p g := by
  intro g hg
  rcases mem_handles_merge hg with hg | hg
  · exact hr g hg
  · exact ho g hg

end

/-- The handles refer to the first `n` slots. -/
def Within (n : Nat) (r : Registry) : Prop :=
  ∀ h ∈ r.handles, h.slot < n

variable {n m : Nat}

theorem Within.empty : Within n {} :=
  fun _ hg => nomatch hg

theorem Within.mono (hr : r.Within n) (hn : n ≤ m) : r.Within m :=
  fun h hh => Nat.lt_of_lt_of_le (hr h hh) hn

theorem Within.insert (hr : r.Within n) (hh : h.slot < n) (name : String) :
    (r.insert name h).Within n :=
  forall_handles_insert hr hh name

theorem Within.adopt (hr : r.Within n) (hh : h.slot < n) : (r.adopt h).value.Within n :=
  forall_handles_adopt hr hh

theorem Within.merge (hr : r.Within n) (ho : other.Within n) : (r.merge other).value.Within n :=
  forall_handles_merge hr ho

end Registry

/-! ## Builders -/

namespace Builder

variable {b c : Builder}

@[simp] theorem placeholders_tag (b : Builder) (identifier : String) :
    (b.tag identifier).placeholders = b.placeholders := by
  simp [tag]

@[simp] theorem placeholders_giveAttributes (b : Builder) (given : Attributes) :
    (b.giveAttributes given).value.placeholders = b.placeholders := by
  unfold giveAttributes
  split
  · rfl
  · split <;> rfl

@[simp] theorem placeholders_enterScope (b : Builder) :
    b.enterScope.value.placeholders = b.placeholders := by
  unfold enterScope
  cases b.pendingTag? <;> rfl

@[simp] theorem placeholders_leaveScope (b : Builder) :
    b.leaveScope.placeholders = b.placeholders := by
  cases h : b.stack.scopes with
  | nil => rw [leaveScope_of_nil h, placeholders_close]
  | cons scope scopes => simp [leaveScope_of_cons h]

@[simp] theorem placeholders_element (b : Builder) (identifier text : String) :
    (b.element identifier text).placeholders = b.placeholders := by
  simp [element, pushText]

/-- The handles that the builder knows refer to the first `n` slots. -/
structure Within (n : Nat) (b : Builder) : Prop where
  slots : ∀ i ∈ b.slots, i < n
  placeholders : b.placeholders.Within n

namespace Within

variable {n m : Nat}

theorem new (name : String) : ({ name } : Builder).Within n where
  slots _ hi := nomatch hi
  placeholders := .empty

theorem mono (hb : b.Within n) (hn : n ≤ m) : b.Within m :=
  ⟨fun i hi => Nat.lt_of_lt_of_le (hb.slots i hi) hn, hb.placeholders.mono hn⟩

theorem of_eq (hb : b.Within n) (hs : c.slots = b.slots) (hp : c.placeholders = b.placeholders) :
    c.Within n :=
  ⟨by rw [hs]; exact hb.slots, by rw [hp]; exact hb.placeholders⟩

theorem close (hb : b.Within n) : b.close.Within n :=
  hb.of_eq (slots_close b) (placeholders_close b)

theorem element (hb : b.Within n) (identifier text : String) :
    (b.element identifier text).Within n :=
  hb.of_eq (slots_element b identifier text) (placeholders_element b identifier text)

theorem push_slot {h : Handle} (hb : b.Within n) (hh : h.slot < n) {r : Registry}
    (hr : r.Within n) : ({ b with placeholders := r }.push (.slot h)).Within n := by
  refine ⟨?_, hr⟩
  rw [slots_push_slot]
  intro i hi
  rcases List.mem_append.mp hi with hi | hi
  · exact hb.slots i hi
  · exact List.mem_singleton.mp hi ▸ hh

theorem adopt {snippet : Builder} (hb : b.Within n) (hs : snippet.Within n) :
    (b.adopt snippet).value.Within n := by
  constructor
  · rw [slots_adopt]
    exact fun i hi => (List.mem_append.mp hi).elim (hb.slots i) (hs.slots i)
  · rw [value_adopt]
    exact hb.placeholders.merge hs.placeholders

end Within

end Builder

/-! ## Stores and contents -/

/-- Every builder in the store knows handles of the store only. -/
def Store.Scoped (st : Store) : Prop :=
  ∀ i, (st.builder i).Within st.size

/-- The content brings handles to the first `n` slots. -/
def Content.Within (n : Nat) : Content → Prop
  | .slot h => h.slot < n
  | .snippet b => b.Within n
  | .empty | .text _ | .markup _ => True

namespace Content

variable {n m : Nat} {c : Content}

theorem Within.mono (hc : c.Within n) (hn : n ≤ m) : c.Within m := by
  cases c with
  | slot h => exact Nat.lt_of_lt_of_le hc hn
  | snippet b => exact Builder.Within.mono hc hn
  | empty | text | markup => trivial

theorem Within.slots (hc : c.Within n) : ∀ i ∈ c.slots, i < n := by
  cases c with
  | slot h => exact fun i hi => List.mem_singleton.mp hi ▸ hc
  | snippet b => exact Builder.Within.slots hc
  | empty | text | markup => exact fun i hi => nomatch hi

end Content

namespace Builder.Within

variable {b : Builder} {c : Content} {st : Store}

theorem append (hb : b.Within st.size) (hs : st.Scoped) (hc : c.Within st.size) :
    (b.append c st).value.Within st.size := by
  cases c with
  | empty => exact hb
  | text text => exact hb.of_eq (slots_pushText b text) rfl
  | markup html => exact hb.of_eq (slots_pushPiece b _) rfl
  | snippet snippet => exact hb.adopt hc
  | slot h =>
    simp only [Builder.append, pushSlot]
    split
    · exact hb.push_slot hc (hb.placeholders.adopt hc)
    · refine hb.push_slot hc (hb.placeholders.merge ?_)
      unfold Store.placeholders
      split
      · exact .empty
      · exact (hs h.slot).placeholders

theorem content (hb : b.Within st.size) (hs : st.Scoped) (hc : c.Within st.size) :
    (b.content c st).value.Within st.size :=
  (hb.append hs hc).close

theorem contents {cs : List Content} (hb : b.Within st.size) (hs : st.Scoped)
    (hc : ∀ c ∈ cs, c.Within st.size) : (b.contents cs st).value.Within st.size := by
  refine close ?_
  exact Logged.foldlM_induction (R := Within st.size) hb fun c hm _ hb => hb.append hs (hc c hm)

end Builder.Within

namespace Store.Scoped

variable {st : Store} {b : Builder} {i : SlotId}

theorem closed (hs : st.Scoped) : st.Closed :=
  fun i => (hs i).slots

theorem put (hs : st.Scoped) (hb : b.Within st.size) (i : SlotId) : (st.put i b).Scoped := by
  rw [Scoped, size_put]
  exact forall_put hs hb i

theorem allocate (hs : st.Scoped) (hb : b.Within st.size) : (st.allocate b).Scoped := by
  have larger {c : Builder} (hc : c.Within st.size) : c.Within (st.size + 1) :=
    hc.mono (Nat.le_succ _)
  rw [Scoped, size_allocate]
  exact forall_allocate (fun i => larger (hs i)) (larger hb)

theorem setEditing (hs : st.Scoped) (i : SlotId) (editing : Bool) :
    (st.setEditing i editing).Scoped := by
  rw [Scoped, size_setEditing]
  exact forall_setEditing hs i editing

end Store.Scoped

/-! ## What calls leave alone -/

/-- The store may have grown and changed, but no edit began or ended, and what is being edited is as
it was. -/
structure Store.Respects (st st' : Store) : Prop where
  size : st.size ≤ st'.size
  isEdited : ∀ i, st'.isEdited i = st.isEdited i
  builder : ∀ i, st.isEdited i = true → st'.builder i = st.builder i

namespace Store.Respects

variable {st st' st'' : Store} {i : SlotId}

theorem refl (st : Store) : st.Respects st :=
  ⟨Nat.le_refl _, fun _ => rfl, fun _ _ => rfl⟩

theorem trans (h : st.Respects st') (h' : st'.Respects st'') : st.Respects st'' where
  size := Nat.le_trans h.size h'.size
  isEdited i := (h'.isEdited i).trans (h.isEdited i)
  builder i hi := (h'.builder i ((h.isEdited i).trans hi)).trans (h.builder i hi)

theorem put (hi : st.isEdited i = false) (b : Builder) : st.Respects (st.put i b) where
  size := Nat.le_of_eq (size_put st i b).symm
  isEdited j := isEdited_put st i j b
  builder j hj := by
    refine builder_put_of_ne st ?_ b
    rintro rfl
    rw [hi] at hj
    cases hj

theorem isEdited_size (st : Store) : st.isEdited st.size = false :=
  eq_false_of_ne_true fun h => Nat.lt_irrefl _ (lt_size_of_isEdited h)

theorem allocate (st : Store) (b : Builder) : st.Respects (st.allocate b) where
  size := by simp
  isEdited j := by
    rw [isEdited_allocate]
    split
    · subst_vars
      exact (isEdited_size st).symm
    · rfl
  builder j hj := by
    rw [builder_allocate, if_neg]
    rintro rfl
    rw [isEdited_size] at hj
    cases hj

end Store.Respects

/-! ## Calls -/

theorem HandleCall.Permitted.mono {γ : Type} {p q : γ → Prop} {call : HandleCall γ}
    (h : call.Permitted p) (hpq : ∀ c, p c → q c) : call.Permitted q := by
  cases call with
  | set c | add c => exact hpq c h
  | clear => trivial

theorem HandleCall.permitted_iff {γ : Type} {content : γ → Prop} {call : HandleCall γ} :
    call.Permitted content ↔ ∀ c ∈ call.content?, content c := by
  cases call <;> simp [Permitted, content?]

namespace HandleCall

variable {st : Store}

theorem respects_run (call : HandleCall Content) (h : Handle) (st : Store) :
    st.Respects (call.run h st).state := by
  rcases state_cases call h st with hst | ⟨_, he, base, _, hst⟩
  · rw [hst]
    exact .refl st
  · rw [hst]
    exact .put he _

theorem scoped_run {call : HandleCall Content} (hs : st.Scoped)
    (hc : call.Permitted (Content.Within st.size)) (h : Handle) : (call.run h st).state.Scoped := by
  rcases state_cases call h st with hst | ⟨_, _, base, hb, hst⟩
  · rwa [hst]
  · rw [hst]
    refine hs.put ?_ h.slot
    have hbase : base.Within st.size := by
      rcases hb with rfl | rfl
      · exact hs h.slot
      · exact .new _
    rw [permitted_iff] at hc
    cases hcall : call.content? with
    | none => exact hbase
    | some c => exact hbase.content hs (hc c hcall)

end HandleCall

namespace Registry

variable {r : Registry} {name : String} {st : Store} {d : Declared}

theorem declare_eq (hd : r.declare name st = .ok d) :
    d.handle = { name, slot := st.size, isPlaceholder := true } ∧
      d.registry = r.insert name d.handle ∧ d.store = st.allocate { name } := by
  unfold declare at hd
  split at hd
  · cases hd
  · cases hd
    exact ⟨rfl, rfl, rfl⟩

theorem size_declare (hd : r.declare name st = .ok d) : d.store.size = st.size + 1 := by
  rw [(declare_eq hd).2.2, Store.size_allocate]

theorem slot_declare (hd : r.declare name st = .ok d) : d.handle.slot < d.store.size := by
  rw [size_declare hd, (declare_eq hd).1]
  exact Nat.lt_succ_self _

theorem within_declare (hr : r.Within st.size) (hd : r.declare name st = .ok d) :
    d.registry.Within d.store.size := by
  rw [(declare_eq hd).2.1]
  refine Within.insert (hr.mono ?_) (slot_declare hd) name
  rw [size_declare hd]
  exact Nat.le_succ _

theorem scoped_declare (hs : st.Scoped) (hd : r.declare name st = .ok d) : d.store.Scoped := by
  rw [(declare_eq hd).2.2]
  exact hs.allocate (.new name)

theorem respects_declare (hd : r.declare name st = .ok d) : st.Respects d.store := by
  rw [(declare_eq hd).2.2]
  exact .allocate st _

end Registry

namespace Builder

variable {b : Builder} {st : Store} {name : String}

theorem mem_handles_of_placeholder {h : Handle} (hp : b.placeholder name = .ok h) :
    h ∈ b.placeholders.handles := by
  unfold Builder.placeholder at hp
  split at hp
  · rename_i hf
    cases hp
    exact Registry.mem_handles_of_find? hf
  · cases hp

end Builder

namespace BuilderCall

variable {b : Builder} {st : Store}

/-- The call on a handle that a call by name comes to. -/
def byName? : BuilderCall Content AttributeValue String → Option (String × HandleCall Content)
  | .set name c => some (name, .set c)
  | .clear name => some (name, .clear)
  | _ => none

/-- A call by name leaves the builder alone, and it is a call on the handle of the placeholder, if
the builder knows one. -/
theorem state_byName (call : BuilderCall Content AttributeValue String) {name : String}
    {c : HandleCall Content} (hc : call.byName? = some (name, c)) (b : Builder) (st : Store) :
    (∃ e, b.placeholder name = .error e ∧ (call.run b st).state = (b, st)) ∨
      ∃ h, b.placeholder name = .ok h ∧ (call.run b st).state = (b, (c.run h st).state) := by
  cases call with
  | set _ c' =>
    cases hc
    simp only [run, Outcome.map, Builder.set]
    cases b.placeholder name with
    | error e => exact .inl ⟨e, rfl, rfl⟩
    | ok h => exact .inr ⟨h, rfl, rfl⟩
  | clear =>
    cases hc
    simp only [run, Outcome.map, Builder.clear]
    cases b.placeholder name with
    | error e => exact .inl ⟨e, rfl, rfl⟩
    | ok h => exact .inr ⟨h, rfl, rfl⟩
  | _ => cases hc

theorem respects_byName {call : BuilderCall Content AttributeValue String} {name : String}
    {c : HandleCall Content} (hc : call.byName? = some (name, c)) (b : Builder) (st : Store) :
    st.Respects (call.run b st).state.2 := by
  rcases call.state_byName hc b st with ⟨e, _, hst⟩ | ⟨h, _, hst⟩
  · rw [hst]
    exact .refl st
  · rw [hst]
    exact c.respects_run h st

theorem respects_run (call : BuilderCall Content AttributeValue String) (b : Builder) (st : Store) :
    st.Respects (call.run b st).state.2 := by
  cases call with
  | place name =>
    rcases b.place_cases name st with ⟨e, _, hrun⟩ | ⟨d, hd, hrun⟩
    · rw [run, hrun]
      exact .refl st
    · rw [run, hrun]
      exact Registry.respects_declare hd
  | placeWith name c =>
    rcases b.placeWith_cases name c st with ⟨e, _, hrun⟩ | ⟨d, hd, hst, _⟩
    · rw [run, hrun]
      exact .refl st
    · rw [run, hst]
      exact (Registry.respects_declare hd).trans (HandleCall.respects_run _ _ _)
  | set | clear => exact respects_byName rfl b st
  | _ => exact .refl st

/-- The contents of the call have the property. -/
abbrev Brings (content : Content → Prop) (call : BuilderCall Content AttributeValue String) :
    Prop :=
  call.Permitted .any content fun _ => True

theorem Brings.mono {p q : Content → Prop} {call : BuilderCall Content AttributeValue String}
    (h : call.Brings p) (hpq : ∀ c, p c → q c) : call.Brings q := by
  cases call with
  | content c | append c | placeWith _ c | set _ c => exact hpq c h
  | contents cs => exact fun c hc => hpq c (h c hc)
  | _ => exact h

theorem scoped_byName {call : BuilderCall Content AttributeValue String} {name : String}
    {c : HandleCall Content} (hn : call.byName? = some (name, c)) (hb : b.Within st.size)
    (hs : st.Scoped) (hc : c.Permitted (Content.Within st.size)) :
    (call.run b st).state.1.Within (call.run b st).state.2.size ∧
      (call.run b st).state.2.Scoped := by
  rcases call.state_byName hn b st with ⟨e, _, hst⟩ | ⟨h, _, hst⟩
  · rw [hst]
    exact ⟨hb, hs⟩
  · rw [hst]
    exact ⟨hb.mono (c.respects_run h st).size, HandleCall.scoped_run hs hc h⟩

theorem scoped_run {call : BuilderCall Content AttributeValue String} (hb : b.Within st.size)
    (hs : st.Scoped) (hc : call.Brings (Content.Within st.size)) :
    (call.run b st).state.1.Within (call.run b st).state.2.size ∧
      (call.run b st).state.2.Scoped := by
  cases call with
  | tag identifier => exact ⟨hb.of_eq (by simp [run]) (by simp [run]), hs⟩
  | attributes given =>
    exact ⟨hb.of_eq (by simp [run, Outcome.ofLogged]) (by simp [run, Outcome.ofLogged]), hs⟩
  | content c => exact ⟨hb.content hs hc, hs⟩
  | contents cs => exact ⟨hb.contents hs hc, hs⟩
  | append c => exact ⟨hb.append hs hc, hs⟩
  | close => exact ⟨hb.close, hs⟩
  | script code => exact ⟨hb.element "script" code, hs⟩
  | style rules => exact ⟨hb.element "style" rules, hs⟩
  | comment text => exact ⟨hb.of_eq (Builder.slots_comment b text) rfl, hs⟩
  | enterScope =>
    exact ⟨hb.of_eq (Builder.slots_enterScope b) (Builder.placeholders_enterScope b), hs⟩
  | reset => exact ⟨.new _, hs⟩
  | place name =>
    rcases b.place_cases name st with ⟨e, _, hrun⟩ | ⟨d, hd, hrun⟩
    · rw [run, hrun]
      exact ⟨hb, hs⟩
    · have grown : st.size ≤ d.store.size := (Registry.respects_declare hd).size
      rw [run, hrun]
      exact ⟨(hb.mono grown).push_slot (Registry.slot_declare hd)
        (Registry.within_declare hb.placeholders hd), Registry.scoped_declare hs hd⟩
  | placeWith name c =>
    rcases b.placeWith_cases name c st with ⟨e, _, hrun⟩ | ⟨d, hd, hst, hbuilder⟩
    · rw [run, hrun]
      exact ⟨hb, hs⟩
    · have declared : st.size ≤ d.store.size := (Registry.respects_declare hd).size
      have filled := HandleCall.respects_run (.add c) d.handle d.store
      have hr := (Registry.within_declare hb.placeholders hd).mono filled.size
      have hb := hb.mono (Nat.le_trans declared filled.size)
      have hslot := Nat.lt_of_lt_of_le (Registry.slot_declare hd) filled.size
      have hc : (HandleCall.add c).Permitted (Content.Within d.store.size) :=
        Content.Within.mono hc declared
      rw [run, hst]
      refine ⟨?_, HandleCall.scoped_run (Registry.scoped_declare hs hd) hc d.handle⟩
      rcases hbuilder with hbuilder | hbuilder
      · rw [hbuilder]
        exact ⟨hb.slots, hr⟩
      · rw [hbuilder]
        exact hb.push_slot hslot hr
  | set | clear => exact scoped_byName rfl hb hs hc

end BuilderCall

/-! ## Documents -/

namespace Builder.Within

variable {b : Builder} {n : Nat}

theorem tag (hb : b.Within n) (identifier : String) : (b.tag identifier).Within n :=
  hb.of_eq (slots_tag b identifier) (placeholders_tag b identifier)

theorem giveAttributes (hb : b.Within n) (given : Attributes) :
    (b.giveAttributes given).value.Within n :=
  hb.of_eq (slots_giveAttributes b given) (placeholders_giveAttributes b given)

/-- A new document knows no handles. -/
theorem document {config : DocumentConfig} {doc : Logged Builder}
    (h : Hypertext.document config = .ok doc) : doc.value.Within 0 := by
  have builds : Policy.any.Builds (Within 0) :=
    { tag := fun _ hb => hb.tag _
      giveAttributes := fun _ hb => hb.giveAttributes _
      pushText := fun text hb => hb.of_eq (slots_pushText _ text) rfl
      close := close }
  have start : (({ name := "Document Builder" } : Builder).pushPiece doctype).Within 0 :=
    (new _).of_eq (slots_pushPiece _ _) rfl
  exact builds.document Policy.any_documents (Policy.any_config config) start h

end Builder.Within

end Hypertext
