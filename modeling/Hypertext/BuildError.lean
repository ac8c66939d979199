/-! # Refused operations -/

namespace Hypertext

inductive BuildError where
  /-- The builder has placed a placeholder of this name before. -/
  | duplicateName (name : String)
  /-- The builder has no placeholder of this name. -/
  | unknownPlaceholder (name : String)
  /-- The content leads back to the slot it is for. -/
  | selfReference (name : String)
  /-- The slot is being edited. -/
  | slotBusy (name : String)
  /-- No way to link the resource is known from its file name. -/
  | unknownResource (url : String)
deriving DecidableEq, Repr

def BuildError.message : BuildError → String
  | duplicateName name => "placeholder '" ++ name ++ "' is already declared"
  | unknownPlaceholder name =>
    "placeholder '" ++ name ++ "' not found (declare it with place(\"" ++ name ++ "\") first)"
  | selfReference name => "placeholder '" ++ name ++ "' cannot contain itself"
  | slotBusy name => "placeholder '" ++ name ++ "' is being edited"
  | unknownResource url => "unknown resource type for '" ++ url ++ "'"

end Hypertext
