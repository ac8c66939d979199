/-! # Messages

Operations report what they did, and what they could not do, as messages. A message is a value:
it says what happened, and `Message.text` is its wording. -/

namespace Hypertext

inductive Level where
  | debug
  | warn
deriving DecidableEq, Repr

inductive Message where
  /-- Attributes were given to a builder in which no element is pending. -/
  | attributesIgnored (builder attributes : String)
  /-- A scope was opened on a void element. -/
  | voidScope (builder element : String)
  /-- An embedded snippet brings its placeholders along. -/
  | adopting (host : String) (names : List String) (snippet : String)
  | placed (builder placeholder : String) (position : Nat)
  /-- A placeholder takes over the name of another one. -/
  | redeclared (placeholder : String)
  | replaced (placeholder : String)
  | cleared (placeholder : String)
  /-- A slot was reached again inside itself. -/
  | insideItself (placeholder : String)
  /-- A slot was reached that is being edited. -/
  | beingEdited (placeholder : String)
  | seeded (resources : Nat)
deriving DecidableEq, Repr

namespace Message

def level : Message → Level
  | attributesIgnored .. | voidScope .. | redeclared _ | insideItself _ | beingEdited _ => .warn
  | adopting .. | placed .. | replaced _ | cleared _ | seeded _ => .debug

def text : Message → String
  | attributesIgnored builder attributes =>
    builder ++ ": no pending element, attributes '" ++ attributes ++ "' ignored"
  | voidScope builder element =>
    builder ++ ": <" ++ element ++ "> is a void element and cannot be nested into"
  | adopting host names snippet =>
    host ++ ": adopting placeholders [" ++ ", ".intercalate names ++ "] from " ++ snippet
  | placed builder placeholder position =>
    builder ++ ": placeholder '" ++ placeholder ++ "' placed at fragment " ++ toString position
  | redeclared placeholder =>
    "placeholder '" ++ placeholder ++
      "' declared again by an embedded snippet, the new slot replaces the earlier one"
  | replaced placeholder => "placeholder '" ++ placeholder ++ "' replaced"
  | cleared placeholder => "placeholder '" ++ placeholder ++ "' cleared"
  | insideItself placeholder =>
    "placeholder '" ++ placeholder ++ "' contains itself and is not rendered again"
  | beingEdited placeholder =>
    "placeholder '" ++ placeholder ++ "' is being edited and renders as empty"
  | seeded resources => "document seeded with " ++ toString resources ++ " linked resource(s)"

end Message

/-- A result with the messages on the way to it, in order. -/
structure Logged (α : Type) where
  value : α
  log : List Message := []

namespace Logged

variable {α β : Type}

instance : Monad Logged where
  pure a := ⟨a, []⟩
  bind x f := ⟨(f x.value).value, x.log ++ (f x.value).log⟩

@[ext] theorem ext {x y : Logged α} (hv : x.value = y.value) (hl : x.log = y.log) : x = y := by
  cases x; cases y; simp_all

@[simp] theorem value_pure (a : α) : (pure a : Logged α).value = a := rfl

@[simp] theorem log_pure (a : α) : (pure a : Logged α).log = [] := rfl

@[simp] theorem value_bind (x : Logged α) (f : α → Logged β) :
    (x >>= f).value = (f x.value).value := rfl

@[simp] theorem log_bind (x : Logged α) (f : α → Logged β) :
    (x >>= f).log = x.log ++ (f x.value).log := rfl

@[simp] theorem value_map (f : α → β) (x : Logged α) : (f <$> x).value = f x.value := rfl

@[simp] theorem log_map (f : α → β) (x : Logged α) : (f <$> x).log = x.log := by
  simp [Functor.map]

instance : LawfulMonad Logged :=
  .mk' Logged
    (fun x => Logged.ext rfl (log_map id x))
    (fun _ _ => Logged.ext rfl (List.nil_append _))
    (fun _ _ _ => Logged.ext rfl (List.append_assoc _ _ _))

/-- What every step keeps is true behind all of them. -/
theorem foldlM_induction {R : β → Prop} {f : β → α → Logged β} {as : List α} {b : β} (hb : R b)
    (step : ∀ a ∈ as, ∀ b, R b → R (f b a).value) : R (as.foldlM f b).value := by
  induction as generalizing b with
  | nil => exact hb
  | cons a as ih =>
    obtain ⟨first, rest⟩ := List.forall_mem_cons.mp step
    rw [List.foldlM_cons, value_bind]
    exact ih (first b hb) rest

end Logged

end Hypertext
