import Hypertext.Attributes

/-! # Entries of one attribute

Several entries can be of one attribute, in one spelling or in several. Setting the attribute is
about the first of them: it gives way to the new entry, and the others stay. -/

namespace Hypertext.Attributes

variable {a : Attribute} {as : Attributes} {es : List Attribute} {name : String}

/-- The entries of the attribute, in order. -/
def named (as : Attributes) (name : String) : List Attribute :=
  as.entries.filter (·.name = name)

/-- The serialized attributes are the serialized entries in order. -/
theorem html_split (before after : List Attribute) (a : Attribute) :
    (Attributes.mk (before ++ a :: after)).html =
      (Attributes.mk before).html ++ a.html ++ (Attributes.mk after).html := by
  apply String.toList_inj.mp
  simp [html, String.toList_join]

/-- The new entry comes last, or it stands where the first entry of its attribute stood. -/
theorem setEntry_cases (a : Attribute) (es : List Attribute) :
    (∀ e ∈ es, e.name ≠ a.name) ∧ setEntry a es = es ++ [a] ∨
      ∃ before old after, es = before ++ old :: after ∧ old.name = a.name ∧
        (∀ e ∈ before, e.name ≠ a.name) ∧ setEntry a es = before ++ a :: after := by
  induction es with
  | nil => exact .inl ⟨fun _ he => (nomatch he), rfl⟩
  | cons e es ih =>
    by_cases he : e.name = a.name
    · exact .inr ⟨[], e, es, rfl, he, fun _ hb => (nomatch hb), if_pos he⟩
    · have step : setEntry a (e :: es) = e :: setEntry a es := if_neg he
      rw [step]
      rcases ih with ⟨others, last⟩ | ⟨before, old, after, rfl, named, others, replaced⟩
      · rw [last]
        exact .inl ⟨List.forall_mem_cons.mpr ⟨he, others⟩, rfl⟩
      · rw [replaced]
        exact .inr ⟨e :: before, old, after, rfl, named,
          List.forall_mem_cons.mpr ⟨he, others⟩, rfl⟩

theorem filter_eq_nil_of_others (h : ∀ e ∈ es, e.name ≠ name) :
    es.filter (·.name = name) = [] := by
  refine List.filter_eq_nil_iff.mpr ?_
  intro e he
  simpa using h e he

/-- Of the entries of its attribute, the new entry takes the place of the first. -/
theorem named_setEntry_self (a : Attribute) (es : List Attribute) :
    (Attributes.mk (setEntry a es)).named a.name = a :: ((Attributes.mk es).named a.name).tail := by
  rcases setEntry_cases a es with ⟨others, last⟩ | ⟨before, old, after, rfl, same, others, replaced⟩
  · rw [last]
    simp [named, filter_eq_nil_of_others others]
  · rw [replaced]
    simp [named, filter_eq_nil_of_others others, same]

/-- The entries of other attributes stay. -/
theorem named_setEntry_of_ne (hn : name ≠ a.name) (es : List Attribute) :
    (Attributes.mk (setEntry a es)).named name = (Attributes.mk es).named name := by
  rcases setEntry_cases a es with ⟨_, last⟩ | ⟨before, old, after, rfl, same, _, replaced⟩
  · rw [last]
    simp [named, hn.symm]
  · rw [replaced]
    simp [named, same, hn.symm]

end Hypertext.Attributes
