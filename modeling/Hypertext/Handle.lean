/-! # Handles

A slot is a builder that others refer to. A handle refers to a slot; equal slots, not equal names,
make two handles refer to the same one. -/

namespace Hypertext

/-- A slot's number in the store. -/
abbrev SlotId := Nat

structure Handle where
  name : String
  slot : SlotId
  /-- The handle was declared as a named placeholder; a shared builder's handle was not. -/
  isPlaceholder : Bool
deriving DecidableEq, Repr

end Hypertext
