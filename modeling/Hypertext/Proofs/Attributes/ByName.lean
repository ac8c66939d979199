import Hypertext.Proofs.Attributes.Entries
import Mathlib.Data.List.Induction
import Mathlib.Data.List.Nodup

/-! # Attributes by name

An attribute list to which entries are only added by setting them is a map from names to entries that
remembers the order of its names: each name keeps the place it was first given, and its entry is the
one given last, in the spelling given last. -/

namespace Hypertext.Attributes

variable {a b e : Attribute} {es given : List Attribute} {as : Attributes}

/-- The attribute list to which the given entries were set one after the other, from an empty one. -/
def setAll (given : List Attribute) : Attributes :=
  given.foldl (fun as a => as.set a.identifier a.value) {}

/-- The names of the given entries, each where it is first given. -/
def givenNames (given : List Attribute) : List String :=
  (given.map Attribute.name).eraseDups

/-- The entry given last for the name. -/
def lastGiven (given : List Attribute) (name : String) : Option Attribute :=
  (given.filter (·.name = name)).getLast?

/-- The list is the map from the given names to the entries given last for them, in the order in
which the names were first given. -/
structure OrderedMap (given : List Attribute) (as : Attributes) : Prop where
  names : as.entries.map Attribute.name = givenNames given
  once : (as.entries.map Attribute.name).Nodup
  last : ∀ e ∈ as.entries, lastGiven given e.name = some e

/-! ## One call -/

/-- Setting an attribute writes the new entry at the place of the first one of its name, or behind all
of them. -/
theorem setEntry_eq_set (a : Attribute) (es : List Attribute) :
    setEntry a es = match es.findIdx? (·.name = a.name) with
      | some i => es.set i a
      | none => es ++ [a] := by
  induction es with
  | nil => rfl
  | cons e es ih =>
    rw [setEntry, List.findIdx?_cons]
    by_cases he : e.name = a.name
    · rw [if_pos he, if_pos (decide_eq_true he)]
      rfl
    · rw [if_neg he, if_neg (by simpa using he), ih]
      cases es.findIdx? (·.name = a.name) <;> rfl

/-- A new name comes last, and a known one keeps its place. -/
theorem names_setEntry (a : Attribute) (es : List Attribute) :
    (setEntry a es).map Attribute.name =
      if a.name ∈ es.map Attribute.name then es.map Attribute.name
      else es.map Attribute.name ++ [a.name] := by
  rcases setEntry_cases a es with ⟨others, last⟩ | ⟨before, old, after, rfl, same, _, replaced⟩
  · have new : a.name ∉ es.map Attribute.name := by
      intro h
      obtain ⟨e, he, same⟩ := List.mem_map.mp h
      exact others e he same
    rw [last, if_neg new, List.map_append]
    rfl
  · have known : a.name ∈ (before ++ old :: after).map Attribute.name :=
      List.mem_map.mpr ⟨old, List.mem_append_right _ List.mem_cons_self, same⟩
    rw [replaced, if_pos known, List.map_append, List.map_append, List.map_cons, List.map_cons, same]

/-- Where no two entries share a name, those of other names are all that stays. -/
theorem mem_setEntry (once : (es.map Attribute.name).Nodup) (h : e ∈ setEntry a es) :
    e = a ∨ e ∈ es ∧ e.name ≠ a.name := by
  rcases setEntry_cases a es with ⟨others, last⟩ | ⟨before, old, after, rfl, same, others, replaced⟩
  · rw [last, List.mem_append, List.mem_singleton] at h
    exact h.symm.imp_right fun he => ⟨he, others e he⟩
  · rw [replaced, List.mem_append, List.mem_cons] at h
    rcases h with he | rfl | he
    · exact .inr ⟨List.mem_append_left _ he, others e he⟩
    · exact .inl rfl
    · rw [List.map_append, List.map_cons, same] at once
      have apart := (List.nodup_cons.mp (List.nodup_append.mp once).2.1).1
      refine .inr ⟨List.mem_append_right _ (List.mem_cons_of_mem _ he), ?_⟩
      intro hn
      exact apart (List.mem_map.mpr ⟨e, he, hn⟩)

/-- When a name is known already, setting it and setting another one can change places. -/
theorem setEntry_comm (hn : a.name ≠ b.name) (ha : a.name ∈ es.map Attribute.name) :
    setEntry b (setEntry a es) = setEntry a (setEntry b es) := by
  induction es with
  | nil => exact absurd ha List.not_mem_nil
  | cons e es ih =>
    by_cases he : e.name = a.name
    · have hb : e.name ≠ b.name := he ▸ hn
      simp only [setEntry, if_pos he, if_neg hn, if_neg hb]
    · have there : a.name ∈ es.map Attribute.name := by
        rw [List.map_cons, List.mem_cons] at ha
        exact ha.resolve_left (Ne.symm he)
      by_cases hb : e.name = b.name
      · simp only [setEntry, if_neg he, if_pos hb, if_neg hn.symm]
      · simp only [setEntry, if_neg he, if_neg hb, ih there]

/-! ## Call after call -/

theorem setAll_concat (given : List Attribute) (a : Attribute) :
    setAll (given ++ [a]) = (setAll given).set a.identifier a.value :=
  List.foldl_append

/-- A name is new behind the others just if it is none of them. -/
theorem eraseDups_concat (names : List String) (name : String) :
    (names ++ [name]).eraseDups =
      if name ∈ names then names.eraseDups else names.eraseDups ++ [name] := by
  rw [List.eraseDups_append, List.removeAll, List.filter_singleton]
  split
  · rename_i h
    simp [h]
  · rename_i h
    simp [h, List.eraseDups_cons]

theorem givenNames_concat (given : List Attribute) (a : Attribute) :
    givenNames (given ++ [a]) =
      if a.name ∈ givenNames given then givenNames given else givenNames given ++ [a.name] := by
  simp only [givenNames, List.map_append, List.map_singleton, eraseDups_concat, List.mem_eraseDups]

theorem lastGiven_concat (given : List Attribute) (a : Attribute) (name : String) :
    lastGiven (given ++ [a]) name = if a.name = name then some a else lastGiven given name := by
  rw [lastGiven, List.filter_append]
  split
  · rename_i h
    simp [h]
  · rename_i h
    simp [h, lastGiven]

theorem OrderedMap.set (h : OrderedMap given as) (a : Attribute) :
    OrderedMap (given ++ [a]) (as.set a.identifier a.value) where
  names := by
    rw [entries_set, names_setEntry, h.names, givenNames_concat]
  once := by
    rw [entries_set, names_setEntry]
    split
    · exact h.once
    · rename_i new
      refine List.nodup_append.mpr ⟨h.once, List.nodup_singleton _, ?_⟩
      intro name hn other ho same
      rw [List.mem_singleton] at ho
      exact new (ho ▸ same ▸ hn)
  last := by
    intro e he
    rw [lastGiven_concat]
    rcases mem_setEntry h.once he with rfl | ⟨old, other⟩
    · exact if_pos rfl
    · rw [if_neg other.symm]
      exact h.last e old

theorem orderedMap_setAll (given : List Attribute) : OrderedMap given (setAll given) := by
  induction given using List.reverseRec with
  | nil => exact ⟨rfl, List.nodup_nil, fun _ he => (nomatch he)⟩
  | append_singleton given a ih =>
    rw [setAll_concat]
    exact ih.set a

/-- **Attributes are set by name.** In any attribute list, whatever calls made it, the new entry takes
the place of the first one of its name, or comes last if there is none; no other entry changes. Entry
after entry set to an empty list makes an ordered map. Entries of two names, one of them there already,
can be set in either order. -/
theorem set_by_name (as : Attributes) (given : List Attribute) (a b : Attribute) :
    (as.set a.identifier a.value).entries =
        (match as.entries.findIdx? (·.name = a.name) with
          | some i => as.entries.set i a
          | none => as.entries ++ [a]) ∧
      OrderedMap given (setAll given) ∧
      (a.name ≠ b.name → a.name ∈ as.entries.map Attribute.name →
        (as.set a.identifier a.value).set b.identifier b.value =
          (as.set b.identifier b.value).set a.identifier a.value) :=
  ⟨setEntry_eq_set a as.entries, orderedMap_setAll given,
    fun hn ha => congrArg Attributes.mk (setEntry_comm hn ha)⟩

theorem set_by_name_spellings :
    (((setAll [⟨"class", .text "a"⟩, ⟨"for", .text "b"⟩]).set "class_" .absent).set "for_" .absent) =
      ⟨[⟨"class_", .absent⟩, ⟨"for_", .absent⟩]⟩ ∧
    (((setAll [⟨"class", .text "a"⟩, ⟨"for", .text "b"⟩]).set "for_" .absent).set "class_" .absent) =
      ⟨[⟨"class_", .absent⟩, ⟨"for_", .absent⟩]⟩ := by
  have swap := (set_by_name (setAll [⟨"class", .text "a"⟩, ⟨"for", .text "b"⟩]) []
    ⟨"class_", .absent⟩ ⟨"for_", .absent⟩).2.2 (by decide +kernel) (by decide +kernel)
  rw [← swap]
  decide +kernel

end Hypertext.Attributes
