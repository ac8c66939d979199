/-! # Replacing a pattern

Occurrences are taken from left to right, and what an occurrence covers is not looked at again. -/

namespace Hypertext.Escape

/-- Every occurrence of `pattern`, which is not empty, becomes `replacement`. -/
def replace (pattern replacement : List Char) : List Char → List Char
  | [] => []
  | c :: cs =>
    if pattern.isPrefixOf (c :: cs) then
      replacement ++ replace pattern replacement (cs.drop (pattern.length - 1))
    else
      c :: replace pattern replacement cs
termination_by cs => cs.length

end Hypertext.Escape
