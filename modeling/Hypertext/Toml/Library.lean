import Hypertext.Toml.Value

/-! # The library for configuration files

A library reads configuration files and writes their values. What is asked of it is all that is known
of it: another library may be put in its place. -/

namespace Hypertext

/-- What a key takes. -/
inductive Expected where
  | text
  | sequence
  | map
deriving DecidableEq, Repr

/-- Why a text is no configuration. -/
inductive ConfigError where
  /-- The text is no document. -/
  | malformed
  | unknownField (key : String)
  | wrongType (found : Toml.Value) (expected : Expected)
  /-- The viewport is neither switched on or off nor given as text. -/
  | wrongViewport

namespace Toml

structure Library where
  /-- The entries of a document's root table, as they stand in the document; none if the text is no
  document. -/
  document? : String → Option (List (String × Value))
  /-- The entries of a value that is read as a table, in the order in which they are gone through. -/
  table : Value → Except ConfigError (List (String × Value))
  /-- A value as text. -/
  display : Value → String
  /-- What is reported about an error in a text. -/
  report : (text : String) → ConfigError → String

end Toml

end Hypertext
