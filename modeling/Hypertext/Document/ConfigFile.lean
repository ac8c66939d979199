import Hypertext.Document.Config
import Hypertext.Toml.Library

/-! # Configuration files

A configuration can be written as a TOML document with the keys `title`, `html`, `viewport` and
`urls`. Its keys are looked at in order, and the first that is wrong decides. -/

namespace Hypertext

open Toml (Library Value)

/-- A value of the `html` table as the value of an attribute. -/
def AttributeValue.ofToml (lib : Library) : Value → AttributeValue
  | .boolean b => .flag b
  | .string s => .text s
  | v => .text (lib.display v)

def readText : Value → Except ConfigError String
  | .string text => .ok text
  | v => .error (.wrongType v .text)

def readTexts : Value → Except ConfigError (List String)
  | .array items => items.mapM readText
  | v => .error (.wrongType v .sequence)

/-- The attributes that a table lists, one for each of its entries. -/
def Attributes.ofToml (lib : Library) (v : Value) : Except ConfigError Attributes := do
  let entries ← lib.table v
  return ⟨entries.map fun (key, v) => ⟨key, .ofToml lib v⟩⟩

namespace DocumentConfig

def readViewport (config : DocumentConfig) : Value → Except ConfigError DocumentConfig
  | .boolean b => .ok (config.withViewport b)
  | .string text => .ok (config.withViewportContent text)
  | _ => .error .wrongViewport

/-- The configuration with what one entry of the document says. -/
def readEntry (lib : Library) (config : DocumentConfig) (key : String) (v : Value) :
    Except ConfigError DocumentConfig :=
  if key = "title" then do return { config with title := some (← readText v) }
  else if key = "html" then do return { config with html := ← Attributes.ofToml lib v }
  else if key = "viewport" then config.readViewport v
  else if key = "urls" then do return { config with urls := ← readTexts v }
  else .error (.unknownField key)

/-- The configuration that a document's entries make. -/
def ofEntries (lib : Library) (entries : List (String × Value)) :
    Except ConfigError DocumentConfig :=
  entries.foldlM (fun config (key, v) => config.readEntry lib key v) {}

/-- The configuration that a document describes. -/
def load (lib : Library) (text : String) : Except ConfigError DocumentConfig :=
  match lib.document? text with
  | none => .error .malformed
  | some entries => ofEntries lib entries

end DocumentConfig

end Hypertext
