import Hypertext.Proofs.Slots.Scoped
import Mathlib.Data.List.Nodup

/-! # Filing placeholders

What a registry files under a name is found by the name, until another placeholder of that name is
filed. When all placeholders of another registry are adopted, their names go to them and the other
names stay as they were, in whatever order they are adopted. -/

namespace Hypertext.Registry

variable {r other : Registry} {g h : Handle} {name n : String} {es : List (String × Handle)}

/-- The slot that the name is filed for. -/
def slot? (r : Registry) (name : String) : Option SlotId :=
  (r.find? name).map Handle.slot

/-! ## Entries -/

theorem lookup_entry (key : String) (g : Handle) (es : List (String × Handle)) (n : String) :
    ((key, g) :: es).lookup n = if n = key then some g else es.lookup n := by
  rw [List.lookup_cons]
  by_cases hn : n = key
  · simp [hn]
  · have other : (n == key) = false := by simpa using hn
    simp only [other, if_neg hn]

theorem mem_names_iff : n ∈ r.names ↔ (r.slot? n).isSome := by
  unfold names slot? find?
  induction r.entries with
  | nil => simp
  | cons e es ih =>
    obtain ⟨key, g⟩ := e
    rw [lookup_entry, List.map_cons, List.mem_cons]
    by_cases hn : n = key
    · simp [hn]
    · simp only [hn, false_or, if_false, ih]

theorem lookup_fileEntry (name : String) (h : Handle) (es : List (String × Handle)) (n : String) :
    (fileEntry name h es).lookup n = if n = name then some h else es.lookup n := by
  induction es with
  | nil => rw [fileEntry, lookup_entry]
  | cons e es ih =>
    obtain ⟨key, g⟩ := e
    rw [fileEntry, lookup_entry key]
    by_cases hk : name = key
    · subst hk
      rw [if_pos (beq_self_eq_true name), lookup_entry]
      split <;> rfl
    · rw [if_neg (by simpa using hk), lookup_entry, ih]
      by_cases hn : n = key
      · rw [if_pos hn, if_neg fun h => hk (h.symm.trans hn), if_pos hn]
      · rw [if_neg hn, if_neg hn]

theorem keys_fileEntry (name : String) (h : Handle) (es : List (String × Handle)) :
    (fileEntry name h es).map (·.1) =
      if name ∈ es.map (·.1) then es.map (·.1) else es.map (·.1) ++ [name] := by
  induction es with
  | nil => simp [fileEntry]
  | cons e es ih =>
    obtain ⟨key, g⟩ := e
    by_cases hk : name = key
    · simp [fileEntry, hk]
    · by_cases hm : name ∈ es.map (·.1)
      · simp [fileEntry, hk, ih, hm]
      · simp [fileEntry, hk, ih, hm]

theorem slot?_insert (r : Registry) (name : String) (h : Handle) (n : String) :
    (r.insert name h).slot? n = if n = name then some h.slot else r.slot? n := by
  unfold slot? find? insert
  rw [lookup_fileEntry]
  split <;> rfl

/-! ## Adopting -/

/-- The name goes to the adopted slot, whether that slot was filed before or not. -/
theorem slot?_adopt (r : Registry) (h : Handle) (n : String) :
    (r.adopt h).value.slot? n = if n = h.name then some h.slot else r.slot? n := by
  unfold adopt
  split
  · exact slot?_insert r h.name h n
  · rename_i filed hf
    split
    · rename_i same
      by_cases hn : n = h.name
      · rw [if_pos hn, hn, slot?, hf, Option.map_some, same]
      · rw [if_neg hn]
    · exact slot?_insert r h.name h n

/-- Every entry is filed under its own name, and no name twice. -/
structure Filed (r : Registry) : Prop where
  own : ∀ e ∈ r.entries, e.2.name = e.1
  once : r.names.Nodup

namespace Filed

theorem empty : Filed {} where
  own _ he := nomatch he
  once := List.nodup_nil

theorem insert (hr : r.Filed) (h : Handle) : (r.insert h.name h).Filed where
  own e he := by
    rcases mem_fileEntry he with rfl | he
    · rfl
    · exact hr.own e he
  once := by
    have once := hr.once
    rw [names, Registry.insert, keys_fileEntry]
    split
    · exact once
    · rename_i hm
      refine List.nodup_append.mpr ⟨once, List.nodup_singleton _, ?_⟩
      intro a ha b hb hab
      rw [hab, List.mem_singleton.mp hb] at ha
      exact hm ha

theorem adopt (hr : r.Filed) (h : Handle) : (r.adopt h).value.Filed := by
  unfold Registry.adopt
  split
  · exact hr.insert h
  · split
    · exact hr
    · exact hr.insert h

theorem adoptAll (hr : r.Filed) (hs : List Handle) : (hs.foldlM Registry.adopt r).value.Filed :=
  Logged.foldlM_induction hr fun h _ _ hr => hr.adopt h

theorem names_eq (hr : r.Filed) : r.handles.map Handle.name = r.names := by
  rw [handles, names, List.map_map]
  exact List.map_congr_left hr.own

/-- A name is looked up among the handles' own names. -/
theorem find?_eq (hr : r.Filed) (n : String) : r.find? n = r.handles.find? (·.name == n) := by
  have own := hr.own
  unfold find? handles
  generalize r.entries = es at own ⊢
  induction es with
  | nil => rfl
  | cons e es ih =>
    obtain ⟨key, g⟩ := e
    obtain ⟨he, own⟩ := List.forall_mem_cons.mp own
    have named : g.name = key := he
    rw [lookup_entry, List.map_cons, List.find?_cons, ih own, named]
    by_cases hn : n = key
    · simp [hn]
    · have other : (key == n) = false := by simpa using Ne.symm hn
      rw [if_neg hn, other]

end Filed

/-- Among handles of different names, one is found by its name. -/
theorem find?_name_iff {hs : List Handle} (hn : (hs.map Handle.name).Nodup) :
    hs.find? (·.name == n) = some h ↔ h ∈ hs ∧ h.name = n := by
  constructor
  · intro hf
    exact ⟨List.mem_of_find?_eq_some hf, by simpa using List.find?_some hf⟩
  · rintro ⟨hm, rfl⟩
    cases hf : hs.find? (·.name == h.name) with
    | none => simpa using List.find?_eq_none.mp hf h hm
    | some g =>
      have named : g.name = h.name := by simpa using List.find?_some hf
      rw [List.inj_on_of_nodup_map hn (List.mem_of_find?_eq_some hf) hm named]

/-- Of several handles of different names, each gets its name. -/
theorem slot?_adoptAll {hs : List Handle} (hn : (hs.map Handle.name).Nodup) (r : Registry)
    (n : String) :
    (hs.foldlM adopt r).value.slot? n =
      ((hs.find? (·.name == n)).map Handle.slot).or (r.slot? n) := by
  induction hs generalizing r with
  | nil => rfl
  | cons h hs ih =>
    obtain ⟨hh, hn⟩ := List.nodup_cons.mp hn
    rw [List.foldlM_cons, Logged.value_bind, ih hn, slot?_adopt]
    by_cases named : n = h.name
    · have absent : hs.find? (·.name == n) = none := by
        refine List.find?_eq_none.mpr ?_
        intro g hg hgn
        rw [named, beq_iff_eq] at hgn
        exact hh (hgn ▸ List.mem_map_of_mem hg)
      have here : (h.name == n) = true := by simp [named]
      rw [absent, if_pos named, List.find?_cons, here]
      rfl
    · have there : (h.name == n) = false := by simpa using Ne.symm named
      rw [if_neg named, List.find?_cons, there]

/-! The placeholders of a registry have different names, and so they are found in every order. -/

theorem Filed.once_of_perm (ho : other.Filed) {hs : List Handle} (hp : hs.Perm other.handles) :
    (hs.map Handle.name).Nodup := by
  rw [(hp.map _).nodup_iff, ho.names_eq]
  exact ho.once

theorem Filed.find?_of_perm (ho : other.Filed) {hs : List Handle} (hp : hs.Perm other.handles)
    (n : String) : hs.find? (·.name == n) = other.find? n := by
  apply Option.ext
  intro h
  rw [ho.find?_eq, find?_name_iff (ho.once_of_perm hp), find?_name_iff (ho.once_of_perm (.refl _)),
    hp.mem_iff]

/-- The names of the adopted placeholders go to them, in whatever order they are adopted. -/
theorem slot?_merge_of_perm (ho : other.Filed) {hs : List Handle} (hp : hs.Perm other.handles)
    (r : Registry) (n : String) :
    (hs.foldlM adopt r).value.slot? n = (other.slot? n).or (r.slot? n) := by
  rw [slot?_adoptAll (ho.once_of_perm hp), ho.find?_of_perm hp]
  rfl

theorem slot?_merge (ho : other.Filed) (r : Registry) (n : String) :
    (r.merge other).value.slot? n = (other.slot? n).or (r.slot? n) :=
  slot?_merge_of_perm ho (.refl _) r n

end Hypertext.Registry
