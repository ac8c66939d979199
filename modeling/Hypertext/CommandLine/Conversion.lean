import Hypertext.CommandLine.Paragraphs
import Hypertext.Document.ConfigFile
import Hypertext.Document.Seed
import Hypertext.Render

/-! # From plain text to documents

Plain text paragraphs become an HTML document. The program reads its files through `World`, so that
what it answers is a function of what stands in them. What it makes of a command line and of the text
of a configuration file is left to `Libraries`. -/

namespace Hypertext.CommandLine

/-- What the arguments ask for. -/
structure Arguments where
  config : Option String := none
  title : Option String := none
  lang : Option String := none
  urls : List String := []
  viewport : Bool := false
  /-- The file with the body text; without one, it is read from standard input. -/
  input : Option String := none
deriving DecidableEq, Repr

/-- Why a file or stream cannot be read. -/
inductive ReadError where
  | notFound
  | permissionDenied
  /-- The path goes on behind a file. -/
  | notDirectory
  | isDirectory
  | nameTooLong
  /-- What was read is no UTF-8. -/
  | notText
  | other (description : String)
deriving DecidableEq, Repr

def ReadError.message : ReadError → String
  | notFound => "No such file or directory (os error 2)"
  | permissionDenied => "Permission denied (os error 13)"
  | notDirectory => "Not a directory (os error 20)"
  | isDirectory => "Is a directory (os error 21)"
  | nameTooLong => "File name too long (os error 36)"
  | notText => "stream did not contain valid UTF-8"
  | other description => description

/-- Where the program reads from. -/
structure World (m : Type → Type) where
  file : String → m (Except ReadError ByteArray)
  input : m (Except ReadError ByteArray)
  /-- The input is a terminal. -/
  interactive : Bool := false

/-- What the program leaves behind. -/
structure Exit where
  code : Nat
  output : String := ""
  error : String := ""
deriving DecidableEq, Repr

/-- What the program is built on. -/
structure Libraries where
  /-- The arguments of a command line. A command line that is wrong, or asks for help, ends the
  program. -/
  arguments : List String → Except Exit Arguments
  toml : Toml.Library

inductive Failure where
  | configUnreadable (path : String) (e : ReadError)
  /-- The text of the file is no configuration; `report` says why. -/
  | configWrong (path report : String)
  | bodyUnreadable (path : String) (e : ReadError)
  | inputUnreadable (e : ReadError)
  | document (e : BuildError)

def Failure.message : Failure → String
  | configUnreadable path e =>
    "Error loading config '" ++ path ++ "': Failed to read document config file: " ++ e.message
  | configWrong path report =>
    "Error loading config '" ++ path ++ "': Failed to parse document config TOML: " ++ report
  | bodyUnreadable path e => "Error reading file '" ++ path ++ "': " ++ e.message
  | inputUnreadable e => "Error reading from stdin: " ++ e.message
  | document e => "Error: " ++ e.message

def Exit.ofFailure (f : Failure) : Exit where
  code := 1
  error := f.message ++ "\n"

/-- Bytes as text. -/
def textOfBytes (read : Except ReadError ByteArray) : Except ReadError String :=
  match read with
  | .error e => .error e
  | .ok bytes =>
    match String.fromUTF8? bytes with
    | some text => .ok text
    | none => .error .notText

/-- The configuration of a file as it was read. -/
def configOf (toml : Toml.Library) (path : String) (read : Except ReadError ByteArray) :
    Except Failure DocumentConfig :=
  match textOfBytes read with
  | .error e => .error (.configUnreadable path e)
  | .ok text =>
    match DocumentConfig.load toml text with
    | .error e => .error (.configWrong path (toml.report text e))
    | .ok config => .ok config

/-- What the options say goes before what the configuration says. -/
def Arguments.apply (a : Arguments) (config : DocumentConfig) : DocumentConfig :=
  let config := a.title.elim config config.withTitle
  let config := a.lang.elim config config.withLang
  let config := if a.viewport then config.withViewport true else config
  a.urls.foldl DocumentConfig.withUrl config

/-- The paragraphs as elements of the body. -/
def addBody (b : Builder) (body : String) : Builder :=
  (paragraphs body).foldl (fun b paragraph => b.element "p" paragraph) (b.tag "body")

/-- The document with the paragraphs of the body text. -/
def page (config : DocumentConfig) (body : String) : Except BuildError String :=
  match document config with
  | .error e => .error e
  | .ok doc => .ok ((addBody doc.value body).render {}).value

section

variable {m : Type → Type} [Monad m]

/-- Standard input; from a terminal, nothing is read. -/
def World.stdin (w : World m) : m (Except ReadError ByteArray) :=
  if w.interactive then return .ok .empty else w.input

/-- The configuration that the arguments ask for. -/
def loadConfig (toml : Toml.Library) (w : World m) (a : Arguments) :
    m (Except Failure DocumentConfig) :=
  match a.config with
  | none => return .ok (a.apply {})
  | some path => do
    match configOf toml path (← w.file path) with
    | .error f => return .error f
    | .ok config => return .ok (a.apply config)

/-- The body text, from its file or from standard input. -/
def loadBody (w : World m) (a : Arguments) : m (Except Failure String) :=
  match a.input with
  | some path => return (textOfBytes (← w.file path)).mapError (.bodyUnreadable path)
  | none => return (textOfBytes (← w.stdin)).mapError .inputUnreadable

/-- The document is printed when all that it is made of could be read; else the first failure is. -/
def convert (toml : Toml.Library) (w : World m) (a : Arguments) : m Exit := do
  match ← loadConfig toml w a with
  | .error f => return .ofFailure f
  | .ok config =>
    match ← loadBody w a with
    | .error f => return .ofFailure f
    | .ok body =>
      match page config body with
      | .error e => return .ofFailure (.document e)
      | .ok html => return { code := 0, output := html ++ "\n" }

/-- The program with its arguments. -/
def execute (lib : Libraries) (w : World m) (arguments : List String) : m Exit :=
  match lib.arguments arguments with
  | .error exit => return exit
  | .ok a => convert lib.toml w a

end

end Hypertext.CommandLine
