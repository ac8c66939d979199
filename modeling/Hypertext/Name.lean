/-! # Names of elements and attributes

An identifier spells a name with underscores: those inside stand for hyphens, those at the end only
keep the identifier from being a keyword. -/

namespace Hypertext

/-- The letters of the name that an identifier spells. -/
def nameLetters (identifier : List Char) : List Char :=
  (identifier.reverse.dropWhile (· == '_')).reverse.map fun c => if c = '_' then '-' else c

/-- The name that an identifier spells: `aria_role` is `aria-role`, `for_` is `for`. -/
def htmlName (identifier : String) : String :=
  String.ofList (nameLetters identifier.toList)

end Hypertext
