import Hypertext.Proofs.Names.Sessions
import Hypertext.Proofs.Session.Every

/-! # What an embedding adopts

A builder that embeds content takes over the placeholders that come with it, and they replace its own
of the same names. The placeholders of a shared builder are read from its slot, and this cannot be
done while the slot is being edited: then none of them is taken over, and nothing tells so. -/

namespace Hypertext

/-! ## Registries -/

namespace Registry

/-- All that is filed are placeholders, each of them under its own name, and no name is filed twice.
-/
structure Sound (r : Registry) : Prop where
  filed : r.Filed
  known : ∀ h ∈ r.handles, h.isPlaceholder = true

variable {r other : Registry} {h : Handle}

namespace Sound

theorem empty : ({} : Registry).Sound :=
  ⟨.empty, fun _ hh => nomatch hh⟩

theorem insert (hr : r.Sound) (hp : h.isPlaceholder = true) : (r.insert h.name h).Sound where
  filed := hr.filed.insert h
  known _ hg := (mem_handles_insert hg).elim (fun same => same ▸ hp) (hr.known _)

theorem adopt (hr : r.Sound) (hp : h.isPlaceholder = true) : (r.adopt h).value.Sound where
  filed := hr.filed.adopt h
  known _ hg := (mem_handles_adopt hg).elim (fun same => same ▸ hp) (hr.known _)

theorem merge (hr : r.Sound) (ho : other.Sound) : (r.merge other).value.Sound where
  filed := hr.filed.adoptAll _
  known _ hg := (mem_handles_merge hg).elim (hr.known _) (ho.known _)

/-- A new placeholder is filed under its name. -/
theorem declare (hr : r.Sound) {name : String} {st : Store} {d : Declared}
    (hd : r.declare name st = .ok d) : d.registry.Sound := by
  obtain ⟨hh, hreg, _⟩ := declare_eq hd
  have named : d.handle.name = name := by rw [hh]
  rw [hreg, ← named]
  exact hr.insert (by rw [hh])

/-- What is filed under a name is told by its slot alone. -/
theorem find?_eq (hr : r.Sound) (n : String) :
    r.find? n = (r.slot? n).map fun i => { name := n, slot := i, isPlaceholder := true } := by
  unfold slot?
  cases hf : r.find? n with
  | none => rfl
  | some h =>
    have known := hr.known h (mem_handles_of_find? hf)
    rw [hr.filed.find?_eq] at hf
    have named : h.name = n := by simpa using List.find?_some hf
    simp [← known, ← named]

end Sound

/-- The name goes to the adopted placeholder. -/
theorem find?_adopt (hr : r.Sound) (hp : h.isPlaceholder = true) (n : String) :
    (r.adopt h).value.find? n = if n = h.name then some h else r.find? n := by
  rw [(hr.adopt hp).find?_eq, hr.find?_eq, slot?_adopt]
  split
  · rename_i hn
    simp [hn, ← hp]
  · rfl

/-- The names of the adopted placeholders go to them, and the others stay. -/
theorem find?_merge (hr : r.Sound) (ho : other.Sound) (n : String) :
    (r.merge other).value.find? n = (other.find? n).or (r.find? n) := by
  rw [(hr.merge ho).find?_eq, ho.find?_eq, hr.find?_eq, slot?_merge ho.filed, Option.map_or]

theorem find?_single (h : Handle) (n : String) :
    (⟨[(h.name, h)]⟩ : Registry).find? n = if n = h.name then some h else none :=
  lookup_entry h.name h [] n

end Registry

/-! ## Builders -/

/-- The builder knows placeholders only, each by its name. -/
abbrev Builder.KnowsPlaceholders (b : Builder) : Prop :=
  b.placeholders.Sound

namespace Content

/-- A snippet knows placeholders only, each by its name. -/
def KnowsPlaceholders : Content → Prop
  | .snippet b => b.KnowsPlaceholders
  | .empty | .text _ | .markup _ | .slot _ => True

/-- The placeholders that come with the content: those that a snippet knows, a placeholder itself,
and those that a shared builder knows. -/
def placeholders (c : Content) (st : Store) : Registry :=
  match c with
  | .snippet b => b.placeholders
  | .slot h => if h.isPlaceholder then ⟨[(h.name, h)]⟩ else (st.builder h.slot).placeholders
  | .empty | .text _ | .markup _ => {}

/-- The content is a shared builder that is being edited. -/
def Hidden (c : Content) (st : Store) : Prop :=
  ∃ h, c = .slot h ∧ h.isPlaceholder = false ∧ st.isEdited h.slot = true

end Content

namespace Builder

variable {b : Builder} {c : Content} {st : Store}

theorem placeholders_pushSlot_of_shared {h : Handle} (hp : h.isPlaceholder = false) (b : Builder)
    (st : Store) :
    (b.pushSlot h st).value.placeholders = (b.placeholders.merge (st.placeholders h.slot)).value := by
  unfold pushSlot
  rw [if_neg (by simp [hp])]
  rfl

theorem placeholders_pushSlot_of_placeholder {h : Handle} (hp : h.isPlaceholder = true)
    (b : Builder) (st : Store) :
    (b.pushSlot h st).value.placeholders = (b.placeholders.adopt h).value := by
  unfold pushSlot
  rw [if_pos hp]
  rfl

/-- Of a shared builder that is being edited, nothing is taken over. -/
theorem placeholders_append_of_hidden (hc : c.Hidden st) (b : Builder) :
    (b.append c st).value.placeholders = b.placeholders := by
  obtain ⟨h, rfl, hp, he⟩ := hc
  rw [append, placeholders_pushSlot_of_shared hp, Store.placeholders, if_pos he]
  rfl

/-- What comes with the content goes before what the builder knew. -/
theorem find?_placeholders_append (hb : b.KnowsPlaceholders)
    (hs : st.Every Builder.KnowsPlaceholders) (hc : c.KnowsPlaceholders) (visible : ¬ c.Hidden st)
    (n : String) :
    (b.append c st).value.placeholders.find? n =
      ((c.placeholders st).find? n).or (b.placeholders.find? n) := by
  cases c with
  | snippet snippet =>
    rw [append, value_adopt]
    exact Registry.find?_merge hb hc n
  | slot h =>
    rw [append, Content.placeholders]
    cases hp : h.isPlaceholder with
    | true =>
      rw [placeholders_pushSlot_of_placeholder hp, Registry.find?_adopt hb hp, if_pos rfl,
        Registry.find?_single]
      split <;> rfl
    | false =>
      have unedited : ¬ st.isEdited h.slot = true := fun he => visible ⟨h, rfl, hp, he⟩
      rw [placeholders_pushSlot_of_shared hp, Store.placeholders, if_neg unedited]
      exact Registry.find?_merge hb (hs h.slot) n
  | empty | text | markup => rfl

theorem KnowsPlaceholders.append (hb : b.KnowsPlaceholders)
    (hs : st.Every Builder.KnowsPlaceholders) (hc : c.KnowsPlaceholders) :
    (b.append c st).value.KnowsPlaceholders := by
  cases c with
  | snippet snippet =>
    rw [Builder.append, KnowsPlaceholders, value_adopt]
    exact hb.merge hc
  | slot h =>
    rw [Builder.append, KnowsPlaceholders]
    cases hp : h.isPlaceholder with
    | true =>
      rw [placeholders_pushSlot_of_placeholder hp]
      exact hb.adopt hp
    | false =>
      rw [placeholders_pushSlot_of_shared hp, Store.placeholders]
      split
      · exact hb.merge .empty
      · exact hb.merge (hs h.slot)
  | empty | text | markup => exact hb

theorem KnowsPlaceholders.of_eq {d : Builder} (hb : b.KnowsPlaceholders)
    (h : d.placeholders = b.placeholders) : d.KnowsPlaceholders := by
  rwa [KnowsPlaceholders, h]

theorem KnowsPlaceholders.contents {cs : List Content} (hb : b.KnowsPlaceholders)
    (hs : st.Every Builder.KnowsPlaceholders) (hc : ∀ c ∈ cs, c.KnowsPlaceholders) :
    (b.contents cs st).value.KnowsPlaceholders := by
  refine of_eq ?_ (placeholders_close _)
  exact Logged.foldlM_induction (R := KnowsPlaceholders) hb fun c hm _ hb => hb.append hs (hc c hm)

/-- Calls file placeholders only, and each of them under its name. -/
theorem KnowsPlaceholders.call {call : BuilderCall Content AttributeValue String}
    (hb : b.KnowsPlaceholders) (hs : st.Every Builder.KnowsPlaceholders)
    (hc : call.Brings Content.KnowsPlaceholders) : (call.run b st).state.1.KnowsPlaceholders := by
  cases call with
  | tag identifier => exact hb.of_eq (placeholders_tag b identifier)
  | attributes given => exact hb.of_eq (placeholders_giveAttributes b _)
  | content c => exact (hb.append hs hc).of_eq (placeholders_close _)
  | contents cs => exact hb.contents hs hc
  | append c => exact hb.append hs hc
  | close => exact hb.of_eq (placeholders_close b)
  | script code => exact hb.of_eq (placeholders_element b "script" code)
  | style rules => exact hb.of_eq (placeholders_element b "style" rules)
  | comment text => exact hb
  | enterScope => exact hb.of_eq (placeholders_enterScope b)
  | place name =>
    simp only [BuilderCall.run, place]
    split
    · exact hb
    · rename_i d hd
      exact Registry.Sound.declare hb hd
  | placeWith name c =>
    rcases b.placeWith_cases name c st with ⟨e, _, hrun⟩ | ⟨d, hd, _, hbuilder⟩
    · rwa [BuilderCall.run, hrun]
    · have declared : d.registry.Sound := Registry.Sound.declare hb hd
      rw [BuilderCall.run]
      rcases hbuilder with hbuilder | hbuilder
      · rwa [hbuilder]
      · rwa [hbuilder]
  | set | clear => exact hb
  | reset => exact .empty

theorem kept_knowsPlaceholders : Kept KnowsPlaceholders Content.KnowsPlaceholders where
  new _ := .empty
  document hd := by
    have entries := (Named.of_within_zero (Within.document hd))
    exact ⟨entries.filed, entries.known⟩
  call _ _ _ hb hs hc := hb.call hs hc
  leaveScope hb := hb.of_eq (placeholders_leaveScope _)
  supplied {s c} hs hc := by
    cases c with
    | snippet b =>
      obtain ⟨name, site, he, rfl | rfl⟩ := hc
      · exact hs.builderAt he
      · exact (hs.builderAt he).of_eq (placeholders_snapshot _)
    | empty | text | markup | slot => trivial

/-- A placeholder that the builder knows takes what does not lead to it, while nobody edits it. -/
theorem refusal_set_iff {name : String} {h : Handle} (hp : b.placeholders.find? name = some h)
    (payload : Content) (st : Store) :
    (b.set name payload st).refusal = none ↔
      ¬ payload.Finds st h.slot ∧ st.isEdited h.slot = false := by
  have known : b.placeholder name = .ok h := by rw [placeholder, hp]
  have called : b.set name payload st = (HandleCall.set payload).run h st := by
    rw [set, known]
    rfl
  rw [called]
  rcases HandleCall.run_cases (.set payload) h st with
    ⟨⟨c, hc, hf⟩, hrun⟩ | ⟨unseen, ⟨he, hrun⟩ | ⟨he, accepted, _⟩⟩
  · cases hc
    simp [hrun, hf]
  · simp [hrun, he]
  · simp [accepted, he, unseen payload rfl]

end Builder

/-! ## Sessions -/

namespace Session

variable {s : Session} {host : Builder} {c : Content}

/-- **An embedding adopts the placeholders that come with it, unless they are being edited.** What
comes with a snippet, a placeholder or a shared builder goes before what the host knew, name by name,
and each of these names can be filled from then on, unless the slot is being edited or found behind
the content for it. But of a shared builder that is being edited, nothing is adopted: names that the
host did not know stay unknown. So the host comes to know what it should just if the builder is not
being edited, or brings nothing that the host did not know already. -/
theorem embedding_adopts (hs : s.Reachable) (hb : s.Holds host) (hc : s.Supplies c) :
    (¬ c.Hidden s.store →
      (∀ name, (host.append c s.store).value.placeholders.find? name =
        ((c.placeholders s.store).find? name).or (host.placeholders.find? name)) ∧
      ∀ name h, (c.placeholders s.store).find? name = some h → ∀ payload st,
        ((host.append c s.store).value.set name payload st).refusal = none ↔
          ¬ payload.Finds st h.slot ∧ st.isEdited h.slot = false) ∧
    (c.Hidden s.store →
      (host.append c s.store).value.placeholders = host.placeholders ∧
      ∀ name, host.placeholders.find? name = none → ∀ payload st,
        ((host.append c s.store).value.set name payload st).refusal =
          some (.unknownPlaceholder name)) ∧
    ((∀ name, (host.append c s.store).value.placeholders.find? name =
        ((c.placeholders s.store).find? name).or (host.placeholders.find? name)) ↔
      (c.Hidden s.store → ∀ name h, (c.placeholders s.store).find? name = some h →
        host.placeholders.find? name = some h)) := by
  have every := hs.every Builder.kept_knowsPlaceholders
  have known : host.KnowsPlaceholders := by
    rcases hb with ⟨i, _, rfl⟩ | ⟨name, he⟩
    · exact every.store i
    · exact every.own name host he
  have overrides (visible : ¬ c.Hidden s.store) (name : String) :=
    Builder.find?_placeholders_append known every.store
      (Builder.kept_knowsPlaceholders.supplied every hc) visible name
  refine ⟨?_, ?_, ?_⟩
  · intro visible
    refine ⟨overrides visible, ?_⟩
    intro name h hf payload st
    have filed : (host.append c s.store).value.placeholders.find? name = some h := by
      rw [overrides visible, hf, Option.some_or]
    exact Builder.refusal_set_iff filed payload st
  · intro hidden
    have same := Builder.placeholders_append_of_hidden hidden host
    refine ⟨same, ?_⟩
    intro name hf payload st
    rw [Builder.set, Builder.placeholder, same, hf]
  · constructor
    · intro eq hidden name h hf
      rw [← Builder.placeholders_append_of_hidden hidden host, eq, hf, Option.some_or]
    · intro covered
      by_cases hidden : c.Hidden s.store
      · intro name
        rw [Builder.placeholders_append_of_hidden hidden host]
        cases hf : (c.placeholders s.store).find? name with
        | none => rfl
        | some h => exact covered hidden name h hf
      · exact overrides hidden

/-- A card with a placeholder is shared, and there is a builder to embed it. -/
def sharedCard : List Action :=
  [.perform (.create "card" none),
    .perform (.call "card" (.place "A")),
    .perform (.share "card" "c"),
    .perform (.create "host" none)]

def cardContent : Content :=
  .slot ⟨"E Builder", 1, false⟩

theorem embedding_adopts_card :
    (run {} sharedCard).Reachable ∧ (run {} sharedCard).Holds { name := "E Builder" } ∧
    (run {} sharedCard).Supplies cardContent ∧
    (Builder.append { name := "E Builder" } cardContent
      (run {} sharedCard).store).value.placeholders.find? "A" = some ⟨"A", 0, true⟩ ∧
    ((Builder.append { name := "E Builder" } cardContent
      (run {} sharedCard).store).value.set "A" (.text "x") (run {} sharedCard).store).refusal =
        none := by
  have reached := Reachable.start.run sharedCard
  have host : (run {} sharedCard).builder? "host" = some { name := "E Builder" } := by
    decide +kernel
  have card : (run {} sharedCard).handles.find? "c" = some ⟨"E Builder", 1, false⟩ := by
    decide +kernel
  have visible : ¬ cardContent.Hidden (run {} sharedCard).store := by
    intro hidden
    obtain ⟨_, ⟨⟩, _, he⟩ := hidden
    have unedited : (run {} sharedCard).store.isEdited 1 = false := by decide +kernel
    rw [unedited] at he
    cases he
  have brought : (cardContent.placeholders (run {} sharedCard).store).find? "A" =
      some ⟨"A", 0, true⟩ := by
    decide +kernel
  have held := reached.sound.holds host
  obtain ⟨adopts, _⟩ := embedding_adopts reached held (c := cardContent) ⟨"c", card⟩
  obtain ⟨overrides, accepts⟩ := adopts visible
  refine ⟨reached, held, ⟨"c", card⟩, by rw [overrides, brought, Option.some_or], ?_⟩
  refine (accepts "A" _ brought (.text "x") _).mpr ⟨?_, by decide +kernel⟩
  intro finds
  obtain ⟨_, hj, _⟩ := finds
  cases hj

/-- While the card is being edited, a builder that embeds it does not come to know its placeholder,
which nobody edits. -/
theorem card_hidden_by_edit :
    let s := (run {} sharedCard).act (.beginEdit "c" "x")
    s.Reachable ∧ s.Holds { name := "E Builder" } ∧ s.Supplies cardContent ∧
    (cardContent.placeholders s.store).find? "A" = some ⟨"A", 0, true⟩ ∧
    s.store.isEdited 0 = false ∧ ¬ Content.Finds (.text "x") s.store 0 ∧
    (Builder.append { name := "E Builder" } cardContent s.store).value.placeholders.find? "A" = none ∧
    ((Builder.append { name := "E Builder" } cardContent s.store).value.set "A" (.text "x")
      s.store).refusal = some (.unknownPlaceholder "A") := by
  have reached := (Reachable.start.run sharedCard).act (.beginEdit "c" "x")
  have host : ((run {} sharedCard).act (.beginEdit "c" "x")).builder? "host" =
      some { name := "E Builder" } := by
    decide +kernel
  have card : ((run {} sharedCard).act (.beginEdit "c" "x")).handles.find? "c" =
      some ⟨"E Builder", 1, false⟩ := by
    decide +kernel
  refine ⟨reached, reached.sound.holds host, ⟨"c", card⟩, by decide +kernel, by decide +kernel, ?_,
    by decide +kernel, by decide +kernel⟩
  intro finds
  obtain ⟨_, hj, _⟩ := finds
  cases hj

end Session

end Hypertext
