import Hypertext.Escape.Replace
import Hypertext.Unicode.Alphanumeric

/-! # Character references

The characters that markup gives a meaning are written as character references: `&`, `<` and `>`
in text, the double quote too in an attribute value. -/

namespace Hypertext.Escape

/-- What text writes for a character. -/
def textReference : Char → List Char
  | '&' => ['&', 'a', 'm', 'p', ';']
  | '<' => ['&', 'l', 't', ';']
  | '>' => ['&', 'g', 't', ';']
  | c => [c]

/-- What a quoted attribute value writes for a character. -/
def quotedReference : Char → List Char
  | '"' => ['&', 'q', 'u', 'o', 't', ';']
  | c => textReference c

def escapeText (text : String) : String :=
  String.ofList (text.toList.flatMap textReference)

/-- A value is written bare when it has characters and all of them are letters or digits. -/
def isBare (value : List Char) : Bool :=
  !value.isEmpty && value.all Unicode.isAlphanumeric

/-- The written form of an attribute value, with its quotes if it needs them. -/
def escapeAttribute (value : String) : String :=
  if isBare value.toList then value
  else String.ofList ('"' :: value.toList.flatMap quotedReference ++ ['"'])

/-- Each reference goes back to its character. The ampersand comes last, so that the ampersand it
brings back starts no reference. -/
def unescape (text : String) : String :=
  String.ofList
    (replace ['&', 'a', 'm', 'p', ';'] ['&']
      (replace ['&', 'q', 'u', 'o', 't', ';'] ['"']
        (replace ['&', 'g', 't', ';'] ['>']
          (replace ['&', 'l', 't', ';'] ['<'] text.toList))))

@[simp] theorem toList_escapeText (text : String) :
    (escapeText text).toList = text.toList.flatMap textReference := by
  simp [escapeText]

end Hypertext.Escape
