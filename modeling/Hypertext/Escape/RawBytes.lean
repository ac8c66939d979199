import Hypertext.Escape.RawText

/-! # Raw text byte by byte

End tags can be looked for in the UTF-8 bytes of a text, without reading its characters. One pass
goes over the bytes and copies the text in parts, each up to the `<` of an end tag. Places are counted
in bytes, and a text can be cut only between two of its characters: a cut elsewhere gives nothing. -/

namespace Hypertext.Escape

def utf8 (text : String) : List UInt8 :=
  text.toList.flatMap String.utf8EncodeChar

/-- The part of the text between two places, if both stand between characters or at an end. -/
def slice? (text : String) (start stop : Nat) : Option String :=
  if start ≤ stop ∧ String.Pos.Raw.IsValid text ⟨start⟩ ∧ String.Pos.Raw.IsValid text ⟨stop⟩ then
    String.fromUTF8? (text.toByteArray.extract start stop)
  else none

/-- A capital ASCII letter is made small. -/
def lowerByte (b : UInt8) : UInt8 :=
  if 65 ≤ b ∧ b ≤ 90 then b + 32 else b

/-- The bytes are the same, whatever the case of their ASCII letters. -/
def sameLetters (as bs : List UInt8) : Bool :=
  as.map lowerByte == bs.map lowerByte

/-- `</` and the name stand at the place. -/
def endTagAt (name bytes : List UInt8) (i : Nat) : Bool :=
  bytes.extract i (i + 2) == utf8 "</" &&
    decide (i + 2 + name.length ≤ bytes.length) &&
    sameLetters (bytes.extract (i + 2) (i + 2 + name.length)) name

/-- The pass goes on at `i`, and what stands before `last` is written. -/
def breakFrom (name : List UInt8) (text : String) (i last : Nat) (written : String) :
    Option String :=
  if i + 2 ≤ (utf8 text).length then
    if endTagAt name (utf8 text) i then do
      let part ← slice? text last (i + 1)
      breakFrom name text (i + 2 + name.length) (i + 1) (written ++ part ++ "\\")
    else breakFrom name text (i + 1) last written
  else do
    let part ← slice? text last (utf8 text).length
    return written ++ part
termination_by (utf8 text).length - i

/-- Every `</` with the name behind it gets a backslash behind its `<`. -/
def breakInBytes (name text : String) : Option String :=
  breakFrom (utf8 name) text 0 0 ""

end Hypertext.Escape
