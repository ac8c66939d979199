import Hypertext.Render

/-! # Summaries

A short view of a builder or slot, for messages and for looking at it while it is made. Texts are
measured in characters. -/

namespace Hypertext

/-- Markup of more characters is cut in a summary. -/
def briefLimit : Nat := 100

/-- What a summary keeps of longer markup. -/
def briefKeep : Nat := 20

/-- A view of more characters is cut in the middle. -/
def inspectLimit : Nat := 10000

/-- What a view keeps at each of its ends. -/
def inspectKeep : Nat := 1000

/-- `《name》`, `《name:markup》` or `《name:beginning ···》` -/
def summary (name html : String) : String :=
  let body :=
    if html.length > briefLimit then
      ":" ++ String.ofList (html.toList.take briefKeep) ++ " ···"
    else if html.length > 0 then ":" ++ html
    else ""
  "《" ++ name ++ body ++ "》"

/-- The text itself, or its two ends when it is too long. -/
def shorten (text : String) : String :=
  if text.length > inspectLimit then
    String.ofList (text.toList.take inspectKeep) ++ " ··· " ++
      String.ofList (text.toList.drop (text.length - inspectKeep))
  else text

def Builder.brief (b : Builder) (st : Store) : Logged String :=
  summary b.name <$> b.render st

/-- The summary of the slot's builder; of a slot being edited, the name alone. -/
def Handle.brief (h : Handle) (st : Store) : Logged String :=
  if st.isEdited h.slot then pure (summary h.name "")
  else (st.builder h.slot).brief st

namespace Fragment

/-- A fragment as it is looked at: a slot is shown by its summary. -/
def inspect (st : Store) : Fragment → Logged String
  | piece p => pure p.html
  | slot h => h.brief st

end Fragment

/-- The markup with the slots' summaries in it. What is no longer than a summary is shown as one. -/
def Builder.inspect (b : Builder) (st : Store) : Logged String := do
  let parts ← b.fragments.toList.mapM (Fragment.inspect st)
  let text := shorten (String.join parts ++ Piece.render (b.stack.owed.map .endTag))
  if text.length > briefLimit then
    return "《" ++ b.name ++ "》\n" ++ text
  else
    b.brief st

end Hypertext
