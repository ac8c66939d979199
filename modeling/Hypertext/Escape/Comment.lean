import Hypertext.Escape.Replace

/-! # Comments

The text of a comment has figure dashes where its own dashes would end the comment. -/

namespace Hypertext.Escape

/-- Every `-->` becomes `‒‒>`. -/
def escapeComment (text : String) : String :=
  String.ofList (replace ['-', '-', '>'] ['‒', '‒', '>'] text.toList)

end Hypertext.Escape
