import Hypertext.Unicode.Visible

/-! # Texts as messages show them

A text that is quoted in a message keeps to one line and hides nothing: what cannot be seen is
shown by its number. -/

namespace Hypertext.Unicode

def shownChar : Char → List Char
  | '\x00' => ['\\', '0']
  | '\t' => ['\\', 't']
  | '\r' => ['\\', 'r']
  | '\n' => ['\\', 'n']
  | '\\' => ['\\', '\\']
  | '"' => ['\\', '"']
  | c =>
    if isVisible c then [c]
    else '\\' :: 'u' :: '\x7b' :: Nat.toDigits 16 c.toNat ++ ['\x7d']

def shown (text : String) : String :=
  String.ofList ('"' :: text.toList.flatMap shownChar ++ ['"'])

end Hypertext.Unicode
