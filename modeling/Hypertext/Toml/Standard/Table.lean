import Hypertext.Toml.Value

/-! # Tables under construction

A table may come in parts: by its header, by headers of tables inside it, by keys with points. Who
may add to it depends on how it came up, so a table that is still made remembers that. -/

namespace Hypertext.Toml

structure Group (ι : Type) where
  /-- It came up on the way to another table and may still get a header of its own. -/
  implicit : Bool := false
  /-- It came up in a key with points. -/
  dotted : Bool := false
  entries : List (String × ι) := []

/-- What a table under construction holds under a key. -/
inductive Item where
  /-- A value is finished. -/
  | value (v : Value)
  | table (group : Group Item)
  | tables (groups : List (Group Item))

abbrev TableGroup := Group Item

namespace Group

variable {ι : Type}

def find? (g : Group ι) (key : String) : Option ι :=
  g.entries.lookup key

/-- A new entry comes last. -/
def push (g : Group ι) (key : String) (item : ι) : Group ι :=
  { g with entries := g.entries ++ [(key, item)] }

/-- The entry of the key is replaced where it stands. -/
def replace (g : Group ι) (key : String) (item : ι) : Group ι :=
  { g with entries := g.entries.map fun e => if e.1 = key then (key, item) else e }

def erase (g : Group ι) (key : String) : Group ι :=
  { g with entries := g.entries.filter fun e => e.1 != key }

end Group

namespace TableGroup

/-- The last of several tables is changed. -/
def changeLast (change : TableGroup → Option TableGroup) : List TableGroup → Option (List TableGroup)
  | [] => none
  | [g] => (change g).map ([·])
  | g :: gs => (changeLast change gs).map (g :: ·)

/-- The table at the end of a path is changed. Tables on the way come up if they are not there. A
key with points (`dotted`) leads through no table that has a header. -/
def changeAt (dotted : Bool) (change : TableGroup → Option TableGroup) :
    List String → TableGroup → Option TableGroup
  | [], g => change g
  | key :: path, g =>
    match g.find? key with
    | none => do
      let inner ← changeAt dotted change path { implicit := true, dotted }
      return g.push key (.table inner)
    | some (.value _) => none
    | some (.tables groups) => do
      let groups ← changeLast (changeAt dotted change path) groups
      return g.replace key (.tables groups)
    | some (.table inner) =>
      if dotted && !inner.implicit then none
      else do
        let inner ← changeAt dotted change path inner
        return g.replace key (.table inner)

/-- The table at the end of a path; none if a value stands in the way. -/
def groupAt? : List String → TableGroup → Option TableGroup
  | [], g => some g
  | key :: path, g =>
    match g.find? key with
    | none => some {}
    | some (.value _) => none
    | some (.tables groups) => groups.getLast?.bind (groupAt? path)
    | some (.table inner) => groupAt? path inner

/-- A value comes in under a key that may have points. -/
def insertValue (path : List String) (key : String) (v : Value) (g : TableGroup) :
    Option TableGroup :=
  changeAt true
    (fun g =>
      if g.dotted == path.isEmpty || (g.find? key).isSome then none
      else some (g.push key (.value v)))
    path g

mutual

/-- The value that an item has become when the document ends. -/
def itemValue : Item → Value
  | .value v => v
  | .table g => groupValue g
  | .tables gs => .array (groupsValues gs)

def groupValue : Group Item → Value
  | ⟨_, _, entries⟩ => .table (entriesValues entries)

def groupsValues : List (Group Item) → List Value
  | [] => []
  | g :: gs => groupValue g :: groupsValues gs

def entriesValues : List (String × Item) → List (String × Value)
  | [] => []
  | (key, item) :: es => (key, itemValue item) :: entriesValues es

end

def entryValues (g : TableGroup) : List (String × Value) :=
  entriesValues g.entries

end TableGroup

/-- A header that has not been followed by another one yet. -/
structure Header where
  path : List String
  key : String
  /-- The table is one of several. -/
  several : Bool

/-- A document under construction. -/
structure Draft where
  root : TableGroup := {}
  /-- The table that key-value pairs go to. Without a header it is the root. -/
  current : TableGroup := {}
  header : Option Header := none

namespace Draft

/-- The current table takes its place in the root. -/
def finish (d : Draft) : Option TableGroup :=
  match d.header with
  | none => some d.current
  | some h =>
    TableGroup.changeAt false
      (fun g =>
        match h.several, g.find? h.key with
        | true, none => some (g.push h.key (.tables [d.current]))
        | true, some (.tables gs) => some (g.replace h.key (.tables (gs ++ [d.current])))
        | true, some _ => none
        | false, none => some (g.push h.key (.table d.current))
        | false, some _ => none)
      h.path d.root

/-- A header starts the table of its key. A table that came up on the way to another one is taken
out of its place and continued; another one of that key is refused. -/
def startTable (d : Draft) (path : List String) (key : String) : Option Draft := do
  let root ← d.finish
  let parent ← TableGroup.groupAt? path root
  let current ←
    match parent.find? key with
    | none => some {}
    | some (.table g) => if g.implicit && !g.dotted then some { entries := g.entries } else none
    | some _ => none
  let root ← TableGroup.changeAt false (fun g => some (g.erase key)) path root
  return { root, current, header := some { path, key, several := false } }

/-- A header starts one more of the tables of its key. -/
def startOneOfTables (d : Draft) (path : List String) (key : String) : Option Draft := do
  let root ← d.finish
  let root ← TableGroup.changeAt false
    (fun g =>
      match g.find? key with
      | none => some (g.push key (.tables []))
      | some (.tables _) => some g
      | some _ => none)
    path root
  return { root, current := {}, header := some { path, key, several := true } }

/-- A key-value pair comes into the current table. -/
def insert (d : Draft) (path : List String) (key : String) (v : Value) : Option Draft := do
  return { d with current := ← d.current.insertValue path key v }

end Draft

end Hypertext.Toml
