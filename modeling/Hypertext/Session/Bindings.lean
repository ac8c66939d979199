/-! # Variables

Variables are bound by name. A binding can be changed, and it can be shadowed by another one of its
name until that one goes away. -/

namespace Hypertext

/-- The bindings, with each one before those that it shadows. -/
structure Bindings (α : Type) where
  entries : List (String × α) := []
deriving Repr

namespace Bindings

variable {α : Type}

def find? (v : Bindings α) (name : String) : Option α :=
  v.entries.lookup name

/-- A new binding, in front of another one of its name. -/
def push (v : Bindings α) (name : String) (a : α) : Bindings α :=
  ⟨(name, a) :: v.entries⟩

/-- The first binding of the name goes. -/
def erase (v : Bindings α) (name : String) : Bindings α :=
  ⟨v.entries.eraseP fun e => name == e.1⟩

/-- The first binding of the name is changed; without one, there is a new one. -/
def insert (v : Bindings α) (name : String) (a : α) : Bindings α :=
  (v.erase name).push name a

/-- Only the bindings to values with the property stay. -/
def keep (v : Bindings α) (p : α → Bool) : Bindings α :=
  ⟨v.entries.filter fun e => p e.2⟩

theorem mem_of_find?_eq_some {v : Bindings α} {name : String} {a : α}
    (h : v.find? name = some a) : (name, a) ∈ v.entries := by
  obtain ⟨before, after, he, _⟩ := List.lookup_eq_some_iff.mp h
  rw [he]
  simp

theorem find?_push_self (v : Bindings α) (name : String) (a : α) :
    (v.push name a).find? name = some a := by
  simp [find?, push]

theorem find?_push_of_ne (v : Bindings α) {name other : String} (a : α) (h : other ≠ name) :
    (v.push name a).find? other = v.find? other := by
  have hb : (other == name) = false := by simpa using h
  simp [find?, push, List.lookup_cons, hb]

theorem find?_erase_of_ne (v : Bindings α) {name other : String} (h : other ≠ name) :
    (v.erase name).find? other = v.find? other := by
  simp only [find?, erase]
  induction v.entries with
  | nil => rfl
  | cons e es ih =>
    obtain ⟨key, a⟩ := e
    cases hn : name == key with
    | true =>
      have ho : (other == key) = false := by simpa [← eq_of_beq hn] using h
      simp [hn, List.lookup_cons, ho]
    | false => cases ho : other == key <;> simp [hn, List.lookup_cons, ho, ih]

theorem find?_insert_self (v : Bindings α) (name : String) (a : α) :
    (v.insert name a).find? name = some a :=
  find?_push_self _ name a

theorem find?_insert_of_ne (v : Bindings α) {name other : String} (a : α) (h : other ≠ name) :
    (v.insert name a).find? other = v.find? other := by
  rw [insert, find?_push_of_ne _ a h, find?_erase_of_ne v h]

theorem find?_keep {v : Bindings α} {name : String} {a : α} {p : α → Bool}
    (h : v.find? name = some a) (ha : p a = true) : (v.keep p).find? name = some a := by
  obtain ⟨before, after, he, hb⟩ := List.lookup_eq_some_iff.mp h
  refine List.lookup_eq_some_iff.mpr ⟨before.filter fun e => p e.2, after.filter fun e => p e.2, ?_,
    fun e hm => hb e (List.mem_filter.mp hm).1⟩
  simp [keep, he, ha]

end Bindings

end Hypertext
