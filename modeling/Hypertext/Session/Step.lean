import Hypertext.Document.Config
import Hypertext.Session.Expression
import Hypertext.Toml.Library

/-! # Steps

A session goes step by step. A step may hold steps of its own, which run inside a scope or while a
slot is edited. -/

namespace Hypertext

/-- What can be looked at. -/
inductive Look where
  | render
  | brief
  | inspect
  | all

inductive RegistryStep where
  | create
  /-- The new placeholder may be bound to a handle variable, `target`. -/
  | declare (name : String) (target : Option String)
  | adopt (handle : String)
  | merge (registry : String)
  /-- The placeholder is bound to a handle variable if it is filed. -/
  | find (name target : String)
  | contains (name : String)
  | clear
  | look

inductive Step where
  /-- A new builder; without a name, that of a snippet. -/
  | create (builder : String) (name : Option String)
  /-- A new document from a configuration that was read, or could not be. -/
  | newDocument (builder : String) (config : Except ConfigError DocumentConfig)
      (settings : List (Setting ValueExpr))
  | call (builder : String) (call : BuilderCall ContentExpr ValueExpr TextExpr)
  | placeholder (builder name target : String)
  | share (builder target : String)
  | look (builder : String) (look : Look)
  | handleCall (handle : String) (call : HandleCall ContentExpr)
  | copyHandle (handle target : String)
  | sameSlot (handle other : String)
  | lookHandle (handle : String) (look : Look)
  | registry (registry : String) (step : RegistryStep)
  /-- The steps run in a scope of the builder. If `careful`, they end with the first error. -/
  | nest (builder : String) (careful : Bool) (steps : List Step)
  /-- The steps run while the handle's slot is edited through a builder variable. -/
  | edit (handle target : String) (careful : Bool) (steps : List Step)
  /-- The steps around this one are given up. -/
  | abort

structure BuilderView where
  name : String
  isEmpty : Bool
  depth : Nat
  placeholders : List String
  render : String
  brief : String
  inspect : String

structure HandleView where
  name : String
  isPlaceholder : Bool
  isEmpty : Bool
  render : String
  brief : String

/-- What a step says about a registry beside its contents. -/
inductive RegistryNote where
  | none
  | changed (b : Bool)
  | found (b : Bool)

/-- What a step comes to. -/
inductive Answer where
  | done
  | refused (e : BuildError)
  | badConfig (e : ConfigError)
  /-- The slot to edit is being edited. -/
  | borrowed
  | unknownVariable
  | render (html : String)
  | brief (text : String)
  | inspect (text : String)
  | builder (view : BuilderView)
  | handle (view : HandleView)
  | same (b : Bool)
  | registry (r : Registry) (note : RegistryNote)
  /-- The steps inside ran, up to an `abort` or to their end. -/
  | ran (aborted : Bool)
  | aborted

def Answer.isError : Answer → Bool
  | refused _ | badConfig _ | borrowed | unknownVariable => true
  | _ => false

/-- How a step's builder or handle looks behind it. -/
inductive View where
  | builder (html : String) (depth : Nat)
  | handle (html : String)

structure Report where
  answer : Answer
  log : List Message := []
  view : Option View := none
  inner : List Report := []

end Hypertext
