import Hypertext.Toml.Library

/-! # What is asked of a library

Two facts about a library for configuration files are relied on: no table of a document has a key
twice, and a table is gone through in the order of the document. They are said of tables that stand
for themselves; a date or time is a table too while it is read. -/

namespace Hypertext.Toml

namespace Value

/-- The entries of each table in the value have the property. -/
inductive EveryTable (P : List (String × Value) → Prop) : Value → Prop where
  | string (text : String) : EveryTable P (.string text)
  | integer (n : Int) : EveryTable P (.integer n)
  | float (x : Decimal.BinaryNumber) : EveryTable P (.float x)
  | boolean (b : Bool) : EveryTable P (.boolean b)
  | datetime (d : Datetime) : EveryTable P (.datetime d)
  | array {items : List Value} (inside : ∀ v ∈ items, EveryTable P v) : EveryTable P (.array items)
  | table {entries : List (String × Value)} (here : P entries)
      (inside : ∀ e ∈ entries, EveryTable P e.2) : EveryTable P (.table entries)

theorem everyTable_array {P : List (String × Value) → Prop} {items : List Value} :
    (array items).EveryTable P ↔ ∀ v ∈ items, v.EveryTable P := by
  constructor
  · intro h
    cases h with
    | array inside => exact inside
  · exact .array

theorem everyTable_table {P : List (String × Value) → Prop} {entries : List (String × Value)} :
    (table entries).EveryTable P ↔ P entries ∧ ∀ e ∈ entries, e.2.EveryTable P := by
  constructor
  · intro h
    cases h with
    | table here inside => exact ⟨here, inside⟩
  · intro h
    exact .table h.1 h.2

mutual

/-- Whether each table in the value has the property. -/
def decideEveryTable (P : List (String × Value) → Prop) [DecidablePred P] :
    (v : Value) → Decidable (v.EveryTable P)
  | string text => isTrue (.string text)
  | integer n => isTrue (.integer n)
  | float x => isTrue (.float x)
  | boolean b => isTrue (.boolean b)
  | datetime d => isTrue (.datetime d)
  | array items =>
    have := decideItems P items
    decidable_of_iff _ everyTable_array.symm
  | table entries =>
    have := decideEntries P entries
    decidable_of_iff _ everyTable_table.symm

def decideItems (P : List (String × Value) → Prop) [DecidablePred P] :
    (items : List Value) → Decidable (∀ v ∈ items, v.EveryTable P)
  | [] => isTrue nofun
  | v :: items =>
    have := decideEveryTable P v
    have := decideItems P items
    decidable_of_iff _ List.forall_mem_cons.symm

def decideEntries (P : List (String × Value) → Prop) [DecidablePred P] :
    (entries : List (String × Value)) → Decidable (∀ e ∈ entries, e.2.EveryTable P)
  | [] => isTrue nofun
  | (_, v) :: entries =>
    have := decideEveryTable P v
    have := decideEntries P entries
    decidable_of_iff _ List.forall_mem_cons.symm

end

instance (P : List (String × Value) → Prop) [DecidablePred P] : DecidablePred (EveryTable P) :=
  decideEveryTable P

/-- No table in the value has a key twice. -/
abbrev KeysOnce (v : Value) : Prop :=
  v.EveryTable fun entries => (entries.map (·.1)).Nodup

/-- No table in the value stands for a date or time. -/
abbrev Plain (v : Value) : Prop :=
  v.EveryTable fun entries => ∀ e ∈ entries, e.1 ≠ datetimeKey

end Value

namespace Library

/-- What is relied on. -/
structure Lawful (lib : Library) : Prop where
  keysOnce : ∀ ⦃text entries⦄, lib.document? text = some entries → (Value.table entries).KeysOnce
  /-- The entries of a table come in the order of the document. -/
  inOrder : ∀ ⦃entries⦄, (Value.table entries).Plain → lib.table (.table entries) = .ok entries
  /-- Nothing else is read as a table, unless it is a date or time. -/
  onlyTables : ∀ ⦃v⦄, (∀ entries, v ≠ .table entries) → ¬ v.isDatetime →
    ∃ e, lib.table v = .error e

/-- The library that knows one document, and how to write whole numbers. -/
def ofDocument (text : String) (entries : List (String × Value)) : Library where
  document? t := if t = text then some entries else none
  table
    | .table entries => .ok entries
    | v => .error (.wrongType v .map)
  display
    | .integer n => toString n
    | _ => ""
  report _ _ := ""

theorem document_ofDocument (text : String) (entries : List (String × Value)) :
    (ofDocument text entries).document? text = some entries :=
  if_pos rfl

theorem lawful_ofDocument {entries : List (String × Value)} (once : (Value.table entries).KeysOnce)
    (text : String) : (ofDocument text entries).Lawful where
  keysOnce t found h := by
    obtain ⟨-, ⟨⟩⟩ := Option.ite_none_right_eq_some.mp h
    exact once
  inOrder _ _ := rfl
  onlyTables v noTable _ := by
    cases v with
    | table entries => exact absurd rfl (noTable entries)
    | string | integer | float | boolean | datetime | array => exact ⟨_, rfl⟩

end Library

end Hypertext.Toml
