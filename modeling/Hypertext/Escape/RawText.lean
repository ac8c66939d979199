/-! # Raw text

The body of a `<script>` or `<style>` element is not read for character references, so its text
stays as it is, up to the element's own end tag: a backslash inside that tag keeps it from ending
the element. -/

namespace Hypertext.Escape

/-- The text begins with the end tag, in any letter case. The end tag is given in small letters. -/
def startsWithEndTag (endTag text : List Char) : Bool :=
  endTag.isPrefixOf ((text.take endTag.length).map Char.toLower)

/-- Every occurrence of the end tag gets a backslash behind its `<`. -/
def breakEndTags (endTag : List Char) : List Char → List Char
  | [] => []
  | c :: cs =>
    if startsWithEndTag endTag (c :: cs) then
      c :: '\\' :: cs.take (endTag.length - 1) ++
        breakEndTags endTag (cs.drop (endTag.length - 1))
    else
      c :: breakEndTags endTag cs
termination_by cs => cs.length

def scriptEndTag : List Char := ['<', '/', 's', 'c', 'r', 'i', 'p', 't', '>']

def styleEndTag : List Char := ['<', '/', 's', 't', 'y', 'l', 'e', '>']

def escapeScript (code : String) : String :=
  String.ofList (breakEndTags scriptEndTag code.toList)

def escapeStyle (rules : String) : String :=
  String.ofList (breakEndTags styleEndTag rules.toList)

end Hypertext.Escape
