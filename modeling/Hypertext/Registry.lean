import Hypertext.Handle
import Hypertext.Message

/-! # Registries

A registry files placeholders by name, in the order in which their names came up. A placeholder
that is adopted under a name already filed takes over its place. -/

namespace Hypertext

structure Registry where
  entries : List (String × Handle) := []
deriving DecidableEq, Repr

namespace Registry

def find? (r : Registry) (name : String) : Option Handle :=
  r.entries.lookup name

def contains (r : Registry) (name : String) : Bool :=
  (r.find? name).isSome

def names (r : Registry) : List String :=
  r.entries.map (·.1)

def handles (r : Registry) : List Handle :=
  r.entries.map (·.2)

def size (r : Registry) : Nat :=
  r.entries.length

def isEmpty (r : Registry) : Bool :=
  r.entries.isEmpty

/-- The entry of the name is replaced where it stands; without one, a new entry comes last. -/
def fileEntry (name : String) (h : Handle) : List (String × Handle) → List (String × Handle)
  | [] => [(name, h)]
  | e :: es => if name == e.1 then (name, h) :: es else e :: fileEntry name h es

def insert (r : Registry) (name : String) (h : Handle) : Registry :=
  ⟨fileEntry name h r.entries⟩

/-- Adopting the handle would change the registry: its name is filed for no slot or for another. -/
def lacks (r : Registry) (h : Handle) : Bool :=
  match r.find? h.name with
  | none => true
  | some filed => filed.slot != h.slot

/-- The name of a placeholder from elsewhere is filed for its slot. -/
def adopt (r : Registry) (h : Handle) : Logged Registry :=
  match r.find? h.name with
  | none => ⟨r.insert h.name h, []⟩
  | some filed =>
    if filed.slot = h.slot then ⟨r, []⟩
    else ⟨r.insert h.name h, [.redeclared h.name]⟩

/-- Every placeholder of `other` is adopted. -/
def merge (r other : Registry) : Logged Registry :=
  other.handles.foldlM adopt r

end Registry

end Hypertext
