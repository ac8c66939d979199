import Hypertext.Proofs.Names.Registries
import Mathlib.Data.Finset.Dedup
import Mathlib.Data.Finset.Card
import Mathlib.Data.Finset.Lattice.Basic

/-! # Merging registries

The placeholders of a registry are adopted in no particular order. As each of them only touches the
entry of its own name, and no two of them have the same name, all orders come to the same. -/

namespace Hypertext.Registry

variable {r other a b c : Registry} {h : Handle} {hs order : List Handle} {n : String}
  {m : Logged Registry}

/-! ## Registries as they come up -/

/-- What comes of it when all placeholders of `other` are adopted, in one order or another. -/
def Merges (r other : Registry) (merged : Logged Registry) : Prop :=
  ∃ order : List Handle, order.Perm other.handles ∧ merged = order.foldlM adopt r

theorem merges_merge (r other : Registry) : r.Merges other (r.merge other) :=
  ⟨other.handles, .refl _, rfl⟩

/-- Registries that are made by declaring, adopting and merging placeholders, from an empty one. A
registry that is cleared is an empty one again. -/
inductive Reachable : Registry → Prop where
  | empty : Reachable {}
  | declare {r : Registry} {name : String} {st : Store} {d : Declared} (hr : Reachable r)
      (hd : r.declare name st = .ok d) : Reachable d.registry
  | adopt {r : Registry} (hr : Reachable r) (h : Handle) : Reachable (r.adopt h).value
  | merge {r other : Registry} {merged : Logged Registry} (hr : Reachable r)
      (ho : Reachable other) (hm : r.Merges other merged) : Reachable merged.value

theorem Reachable.filed (hr : r.Reachable) : r.Filed := by
  induction hr with
  | empty => exact .empty
  | @declare r name st d _ hd ih =>
    obtain ⟨hh, hreg, _⟩ := declare_eq hd
    have named : d.handle.name = name := by rw [hh]
    rw [hreg, ← named]
    exact ih.insert d.handle
  | adopt _ h ih => exact ih.adopt h
  | merge _ _ hm ih _ =>
    obtain ⟨order, _, rfl⟩ := hm
    exact ih.adoptAll order

/-! ## Entries -/

theorem lookup_eq_some_of_mem {es : List (String × Handle)} (once : (es.map (·.1)).Nodup)
    (he : (n, h) ∈ es) : es.lookup n = some h := by
  induction es with
  | nil => cases he
  | cons e es ih =>
    obtain ⟨key, g⟩ := e
    obtain ⟨new, once⟩ := List.nodup_cons.mp once
    rw [lookup_entry]
    rcases List.mem_cons.mp he with here | there
    · cases here
      exact if_pos rfl
    · have other : n ≠ key := by
        intro same
        exact new (List.mem_map.mpr ⟨(n, h), there, same⟩)
      rw [if_neg other, ih once there]

theorem mem_entries_of_find? (hf : r.find? n = some h) : (n, h) ∈ r.entries := by
  obtain ⟨before, after, split, _⟩ := List.lookup_eq_some_iff.mp hf
  rw [split]
  simp

namespace Filed

theorem find?_eq_some_iff (hr : r.Filed) : r.find? n = some h ↔ (n, h) ∈ r.entries :=
  ⟨mem_entries_of_find?, lookup_eq_some_of_mem hr.once⟩

/-- What is found under the names tells the entries, but for their order. -/
theorem perm_entries (ha : a.Filed) (hb : b.Filed) (same : ∀ n, a.find? n = b.find? n) :
    a.entries.Perm b.entries := by
  refine (List.perm_ext_iff_of_nodup (ha.once.of_map _) (hb.once.of_map _)).mpr ?_
  intro e
  rw [← ha.find?_eq_some_iff, ← hb.find?_eq_some_iff, same]

end Filed

/-! ## One placeholder after the other -/

/-- The handle takes over the name of another slot. -/
def overrides (r : Registry) (h : Handle) : Bool :=
  (r.slot? h.name).any (· != h.slot)

theorem log_adopt (r : Registry) (h : Handle) :
    (r.adopt h).log = if r.overrides h then [.redeclared h.name] else [] := by
  unfold adopt overrides slot?
  cases r.find? h.name with
  | none => rfl
  | some filed =>
    by_cases same : filed.slot = h.slot
    · simp [same]
    · simp [same]

theorem adopt_of_filed (hf : r.slot? h.name = some h.slot) : r.adopt h = ⟨r, []⟩ := by
  obtain ⟨filed, hfiled, same⟩ := Option.map_eq_some_iff.mp hf
  rw [adopt, hfiled]
  exact if_pos same

/-- Adopting one placeholder does not change which others take over a name. -/
theorem overrides_adopt {g : Handle} (hg : g.name ≠ h.name) :
    (r.adopt h).value.overrides g = r.overrides g := by
  rw [overrides, overrides, slot?_adopt, if_neg hg]

theorem log_adoptAll (once : (hs.map Handle.name).Nodup) (r : Registry) :
    (hs.foldlM adopt r).log = (hs.filter r.overrides).map fun h => .redeclared h.name := by
  induction hs generalizing r with
  | nil => rfl
  | cons h hs ih =>
    obtain ⟨new, once⟩ := List.nodup_cons.mp once
    have kept : hs.filter (r.adopt h).value.overrides = hs.filter r.overrides := by
      refine List.filter_congr ?_
      intro g hg
      refine overrides_adopt ?_
      intro same
      exact new (same ▸ List.mem_map_of_mem hg)
    rw [List.foldlM_cons, Logged.log_bind, ih once, kept, log_adopt, List.filter_cons]
    split <;> rfl

theorem find?_insert (r : Registry) (name : String) (h : Handle) (n : String) :
    (r.insert name h).find? n = if n = name then some h else r.find? n :=
  lookup_fileEntry name h r.entries n

/-- The handle is found under its name if its slot was not filed there before. -/
theorem find?_value_adopt (r : Registry) (h : Handle) (n : String) :
    (r.adopt h).value.find? n = if n = h.name ∧ r.lacks h then some h else r.find? n := by
  unfold adopt lacks
  cases hf : r.find? h.name with
  | none => simp [find?_insert]
  | some filed =>
    by_cases same : filed.slot = h.slot
    · simp [same]
    · simp [same, find?_insert]

theorem lacks_adopt {g : Handle} (hg : g.name ≠ h.name) :
    (r.adopt h).value.lacks g = r.lacks g := by
  rw [lacks, find?_value_adopt, if_neg fun both => hg both.1, lacks]

/-- A handle is found that has been filed before, or else one of those that are adopted. -/
theorem find?_adoptAll (once : (hs.map Handle.name).Nodup) (r : Registry) (n : String) :
    (hs.foldlM adopt r).value.find? n =
      ((hs.find? (·.name == n)).filter r.lacks).or (r.find? n) := by
  induction hs generalizing r with
  | nil => rfl
  | cons h hs ih =>
    obtain ⟨new, once⟩ := List.nodup_cons.mp once
    rw [List.foldlM_cons, Logged.value_bind, ih once, find?_value_adopt, List.find?_cons]
    by_cases named : h.name = n
    · have absent : hs.find? (·.name == n) = none := by
        refine List.find?_eq_none.mpr ?_
        intro g hg same
        rw [beq_iff_eq] at same
        exact new (List.mem_map.mpr ⟨g, hg, same.trans named.symm⟩)
      have here : (h.name == n) = true := by simpa using named
      rw [absent, here]
      cases free : r.lacks h <;> simp [Option.filter, named, free]
    · have there : (h.name == n) = false := by simpa using named
      rw [there, if_neg fun both => named both.1.symm]
      cases found : hs.find? (·.name == n) with
      | none => rfl
      | some g =>
        have found : g.name = n := by simpa using List.find?_some found
        have other : g.name ≠ h.name := by
          rw [found]
          exact Ne.symm named
        simp only [Option.filter, lacks_adopt other]

/-- All are filed already. -/
theorem adoptAll_of_filed (hf : ∀ h ∈ hs, r.slot? h.name = some h.slot) :
    hs.foldlM adopt r = ⟨r, []⟩ := by
  induction hs with
  | nil => rfl
  | cons h hs ih =>
    obtain ⟨here, others⟩ := List.forall_mem_cons.mp hf
    rw [List.foldlM_cons, adopt_of_filed here]
    exact ih others

/-! ## All of them -/

/-- Merged with `b`, the registry has the names of both, each of them once. Those of `b` are filed for
the slots that `b` has for them, and there is one warning for each name that was filed for another. -/
structure Merged (a b : Registry) (merged : Logged Registry) : Prop where
  filed : merged.value.Filed
  slots : ∀ n, merged.value.slot? n = (b.slot? n).or (a.slot? n)
  size : merged.value.size = (a.names.toFinset ∪ b.names.toFinset).card
  once : merged.log.Nodup
  warned : ∀ w, w ∈ merged.log ↔
    ∃ n i j, w = .redeclared n ∧ a.slot? n = some i ∧ b.slot? n = some j ∧ i ≠ j

theorem overrides_iff : r.overrides h = true ↔ ∃ i, r.slot? h.name = some i ∧ i ≠ h.slot := by
  simp [overrides, Option.any_eq_true]

theorem Filed.slot?_eq_some_iff (hr : r.Filed) {i : SlotId} :
    r.slot? n = some i ↔ ∃ h ∈ r.handles, h.name = n ∧ h.slot = i := by
  simp only [slot?, Option.map_eq_some_iff, hr.find?_eq,
    find?_name_iff (hr.once_of_perm (.refl _)), and_assoc]

namespace Merges

theorem slot?_eq (hb : b.Filed) (hm : a.Merges b m) (n : String) :
    m.value.slot? n = (b.slot? n).or (a.slot? n) := by
  obtain ⟨order, hp, rfl⟩ := hm
  exact slot?_merge_of_perm hb hp a n

theorem filed (ha : a.Filed) (hm : a.Merges b m) : m.value.Filed := by
  obtain ⟨order, _, rfl⟩ := hm
  exact ha.adoptAll order

theorem size_eq (ha : a.Filed) (hb : b.Filed) (hm : a.Merges b m) :
    m.value.size = (a.names.toFinset ∪ b.names.toFinset).card := by
  have names : m.value.names.toFinset = a.names.toFinset ∪ b.names.toFinset := by
    ext n
    rw [Finset.mem_union, List.mem_toFinset, List.mem_toFinset, List.mem_toFinset, mem_names_iff,
      mem_names_iff, mem_names_iff, hm.slot?_eq hb, Option.isSome_or, Bool.or_eq_true, or_comm]
  rw [← names, List.toFinset_card_of_nodup (hm.filed ha).once, Registry.size, Registry.names,
    List.length_map]

theorem nodup_log (hb : b.Filed) (hm : a.Merges b m) : m.log.Nodup := by
  obtain ⟨order, hp, rfl⟩ := hm
  have once := hb.once_of_perm hp
  have different : ((order.filter a.overrides).map Handle.name).Nodup :=
    (List.filter_sublist.map _).nodup once
  have warnings : (order.foldlM adopt a).log =
      ((order.filter a.overrides).map Handle.name).map Message.redeclared := by
    rw [log_adoptAll once, List.map_map]
    rfl
  rw [warnings]
  refine different.map ?_
  intro n n' same
  exact Message.redeclared.inj same

theorem mem_log_iff (hb : b.Filed) (hm : a.Merges b m) (w : Message) :
    w ∈ m.log ↔
      ∃ n i j, w = .redeclared n ∧ a.slot? n = some i ∧ b.slot? n = some j ∧ i ≠ j := by
  obtain ⟨order, hp, rfl⟩ := hm
  simp only [log_adoptAll (hb.once_of_perm hp), List.mem_map, List.mem_filter, hp.mem_iff,
    overrides_iff, hb.slot?_eq_some_iff]
  constructor
  · intro warned
    obtain ⟨h, ⟨hh, i, filed, other⟩, rfl⟩ := warned
    exact ⟨h.name, i, h.slot, rfl, filed, ⟨h, hh, rfl, rfl⟩, other⟩
  · intro differ
    obtain ⟨_, i, _, rfl, filed, ⟨h, hh, rfl, rfl⟩, other⟩ := differ
    exact ⟨h, ⟨hh, i, filed, other⟩, rfl⟩

theorem merged (ha : a.Filed) (hb : b.Filed) (hm : a.Merges b m) : Merged a b m where
  filed := hm.filed ha
  slots := hm.slot?_eq hb
  size := hm.size_eq ha hb
  once := hm.nodup_log hb
  warned := hm.mem_log_iff hb

/-- Another order leads to the same entries and the same warnings. -/
theorem perm {other : Logged Registry} (ha : a.Filed) (hb : b.Filed) (hm : a.Merges b m)
    (ho : a.Merges b other) :
    m.value.entries.Perm other.value.entries ∧ m.log.Perm other.log := by
  constructor
  · refine (hm.filed ha).perm_entries (ho.filed ha) ?_
    intro n
    obtain ⟨order, hp, rfl⟩ := hm
    obtain ⟨order', hp', rfl⟩ := ho
    rw [find?_adoptAll (hb.once_of_perm hp), find?_adoptAll (hb.once_of_perm hp'),
      hb.find?_of_perm hp, hb.find?_of_perm hp']
  · refine (List.perm_ext_iff_of_nodup (hm.nodup_log hb) (ho.nodup_log hb)).mpr ?_
    intro w
    rw [hm.mem_log_iff hb, ho.mem_log_iff hb]

/-- What has been merged already brings nothing new. -/
theorem again {again : Logged Registry} (hb : b.Filed) (hm : a.Merges b m)
    (hagain : m.value.Merges b again) : again = ⟨m.value, []⟩ := by
  obtain ⟨order, hp, rfl⟩ := hagain
  refine adoptAll_of_filed ?_
  intro h hh
  have here : b.slot? h.name = some h.slot :=
    hb.slot?_eq_some_iff.mpr ⟨h, hp.mem_iff.mp hh, rfl, rfl⟩
  rw [hm.slot?_eq hb, here, Option.some_or]

end Merges

/-- **Merging does not depend on an order.** Of registries that are made by declaring, adopting and
merging, each entry is filed under its own name. In whatever order the placeholders of `b` are
adopted, its names go to its slots and the others stay; one warning is given for each name that both
have for different slots. All orders lead to the same entries and warnings, the same placeholders
bring nothing new when they are merged again, and of three registries any two can be merged first. -/
theorem merge_in_any_order (ha : a.Reachable) (hb : b.Reachable) (hc : c.Reachable)
    {ab : Logged Registry} (hm : a.Merges b ab) :
    (∀ e ∈ a.entries, e.2.name = e.1) ∧
    Merged a b ab ∧
    (ab.value.entries.Perm (a.merge b).value.entries ∧ ab.log.Perm (a.merge b).log) ∧
    (∀ again, ab.value.Merges b again → again = ⟨ab.value, []⟩) ∧
    ∀ bc left right, b.Merges c bc → ab.value.Merges c left → a.Merges bc.value right →
      ∀ n, left.value.slot? n = right.value.slot? n := by
  refine ⟨ha.filed.own, hm.merged ha.filed hb.filed,
    hm.perm ha.filed hb.filed (merges_merge a b), ?_, ?_⟩
  · exact fun _ => hm.again hb.filed
  · intro bc left right hbc hleft hright n
    rw [hleft.slot?_eq hc.filed, hm.slot?_eq hb.filed, hright.slot?_eq (hbc.filed hb.filed),
      hbc.slot?_eq hc.filed, Option.or_assoc]

def oneAndTwo : Registry :=
  ⟨[("One", ⟨"One", 0, true⟩), ("Two", ⟨"Two", 1, true⟩)]⟩

def twoAndThree : Registry :=
  ⟨[("Two", ⟨"Two", 2, true⟩), ("Three", ⟨"Three", 3, true⟩)]⟩

/-- The second registry merged into the first one from its back. -/
def oneToThree : Logged Registry where
  value := ⟨[("One", ⟨"One", 0, true⟩), ("Two", ⟨"Two", 2, true⟩), ("Three", ⟨"Three", 3, true⟩)]⟩
  log := [.redeclared "Two"]

theorem merge_in_any_order_overlapping :
    oneAndTwo.Reachable ∧ twoAndThree.Reachable ∧ oneAndTwo.Merges twoAndThree oneToThree ∧
    Merged oneAndTwo twoAndThree oneToThree ∧
    oneToThree.log.Perm (oneAndTwo.merge twoAndThree).log := by
  have ha : oneAndTwo.Reachable := by
    rw [show oneAndTwo = ((({} : Registry).adopt ⟨"One", 0, true⟩).value.adopt
      ⟨"Two", 1, true⟩).value by decide +kernel]
    exact (Reachable.empty.adopt _).adopt _
  have hb : twoAndThree.Reachable := by
    rw [show twoAndThree = ((({} : Registry).adopt ⟨"Two", 2, true⟩).value.adopt
      ⟨"Three", 3, true⟩).value by decide +kernel]
    exact (Reachable.empty.adopt _).adopt _
  have hm : oneAndTwo.Merges twoAndThree oneToThree :=
    ⟨twoAndThree.handles.reverse, List.reverse_perm _,
      Logged.ext (by decide +kernel) (by decide +kernel)⟩
  obtain ⟨_, merged, ⟨_, warnings⟩, _⟩ := merge_in_any_order ha hb hb hm
  exact ⟨ha, hb, hm, merged, warnings⟩

end Hypertext.Registry
