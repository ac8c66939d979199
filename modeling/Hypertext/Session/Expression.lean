import Hypertext.Document.Config
import Hypertext.Session.Call
import Hypertext.Session.State

/-! # Expressions

What a step gives to a call is written with variables. It is evaluated before the call acts; a
rendering is taken then, and a builder that is moved loses its variable. -/

namespace Hypertext

/-- A variable that can be rendered. -/
inductive Source where
  | builder (name : String)
  | handle (name : String)

inductive TextExpr where
  | literal (text : String)
  | rendering (source : Source)

inductive ValueExpr where
  | literal (value : AttributeValue)
  | rendering (source : Source)

inductive ContentExpr where
  | empty
  | text (text : TextExpr)
  | markup (html : TextExpr)
  /-- A copy of a builder as it is now. -/
  | copy (builder : String)
  /-- The builder itself; its variable is gone afterwards. -/
  | move (builder : String)
  | handle (name : String)

/-- An evaluation, which fails when it meets an unknown variable. -/
abbrev Eval := StateT Session (OptionT Logged)

namespace Eval

def ofLogged {α : Type} (x : Logged α) : Eval α :=
  StateT.lift (OptionT.lift x)

def ofOption {α : Type} : Option α → Eval α
  | some a => pure a
  | none => failure

def builder (name : String) : Eval Builder := do
  ofOption ((← get).builder? name)

def handle (name : String) : Eval Handle := do
  ofOption ((← get).handles.find? name)

def registry (name : String) : Eval Registry := do
  ofOption ((← get).registries.find? name)

/-- The builder of a variable, which has it no longer. A slot's builder cannot be taken out. -/
def takeBuilder (name : String) : Eval Builder := do
  match (← get).builders.find? name with
  | some (.own b) =>
    modify fun s => { s with builders := s.builders.erase name }
    return b
  | _ => failure

def rendering : Source → Eval String
  | .builder name => do ofLogged ((← builder name).render (← get).store)
  | .handle name => do ofLogged ((← handle name).render (← get).store)

def text : TextExpr → Eval String
  | .literal text => pure text
  | .rendering source => rendering source

def value : ValueExpr → Eval AttributeValue
  | .literal v => pure v
  | .rendering source => .text <$> rendering source

def content : ContentExpr → Eval Content
  | .empty => pure .empty
  | .text t => .text <$> text t
  | .markup t => .markup <$> text t
  | .copy name => return .snippet (← builder name).snapshot
  | .move name => .snippet <$> takeBuilder name
  | .handle name => .slot <$> handle name

def setting : Setting ValueExpr → Eval (Setting AttributeValue)
  | .title title => pure (.title title)
  | .lang lang => pure (.lang lang)
  | .htmlAttribute identifier v => .htmlAttribute identifier <$> value v
  | .viewport enabled => pure (.viewport enabled)
  | .viewportContent viewport => pure (.viewportContent viewport)
  | .url url => pure (.url url)

def builderCall : BuilderCall ContentExpr ValueExpr TextExpr →
    Eval (BuilderCall Content AttributeValue String)
  | .tag identifier => pure (.tag identifier)
  | .attributes given => .attributes <$> given.mapM fun (identifier, v) => (identifier, ·) <$> value v
  | .content c => .content <$> content c
  | .contents cs => .contents <$> cs.mapM content
  | .append c => .append <$> content c
  | .close => pure .close
  | .script code => pure (.script code)
  | .style rules => pure (.style rules)
  | .comment t => .comment <$> text t
  | .enterScope => pure .enterScope
  | .place name => pure (.place name)
  | .placeWith name c => .placeWith name <$> content c
  | .set name c => .set name <$> content c
  | .clear name => pure (.clear name)
  | .reset => pure .reset

def handleCall : HandleCall ContentExpr → Eval (HandleCall Content)
  | .set c => .set <$> content c
  | .add c => .add <$> content c
  | .clear => pure .clear

end Eval

end Hypertext
