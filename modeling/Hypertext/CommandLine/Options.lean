import Hypertext.CommandLine.Conversion

/-! # Command line options

Options have a long name and most a letter too. A value follows its option, as an argument of its own
or in the same one: `--title=T`, `-tT` and `-t=T`. -/

namespace Hypertext.CommandLine

/-- The options that take a value. -/
inductive ValueOption where
  | config
  | title
  | lang
  | url
deriving DecidableEq, Repr

def ValueOption.name : ValueOption → String
  | config => "config"
  | title => "title"
  | lang => "lang"
  | url => "url"

def ValueOption.letter : ValueOption → Char
  | config => 'c'
  | title => 't'
  | lang => 'l'
  | url => 'u'

inductive UsageError where
  | unknownOption (argument : String)
  | missingValue (option : String)
  /-- An option that stands alone was given a value. -/
  | unexpectedValue (option : String)
  /-- An option that may be given once was given again. -/
  | repeated (option : String)
  | emptyPath (name : String)
  | unexpectedArgument (argument : String)
deriving DecidableEq, Repr

def UsageError.message : UsageError → String
  | unknownOption argument => "unexpected argument '" ++ argument ++ "' found"
  | missingValue option => "a value is required for '--" ++ option ++ "' but none was supplied"
  | unexpectedValue option => "'--" ++ option ++ "' takes no value"
  | repeated option => "the argument '--" ++ option ++ "' cannot be used multiple times"
  | emptyPath name => "a value is required for '" ++ name ++ "' but none was supplied"
  | unexpectedArgument argument => "unexpected argument '" ++ argument ++ "' found"

inductive Request where
  | help
  | convert (arguments : Arguments)
deriving DecidableEq, Repr

namespace Arguments

/-- An option gets its value. Only URLs may come more than once. -/
def give (a : Arguments) (option : ValueOption) (value : String) : Except UsageError Arguments :=
  match option with
  | .config =>
    if a.config.isSome then .error (.repeated option.name)
    else if value.isEmpty then .error (.emptyPath "--config")
    else .ok { a with config := some value }
  | .title =>
    if a.title.isSome then .error (.repeated option.name)
    else .ok { a with title := some value }
  | .lang =>
    if a.lang.isSome then .error (.repeated option.name)
    else .ok { a with lang := some value }
  | .url => .ok { a with urls := a.urls ++ [value] }

def giveViewport (a : Arguments) : Except UsageError Arguments :=
  if a.viewport then .error (.repeated "viewport") else .ok { a with viewport := true }

def giveInput (a : Arguments) (path : String) : Except UsageError Arguments :=
  if a.input.isSome then .error (.unexpectedArgument path)
  else if path.isEmpty then .error (.emptyPath "input")
  else .ok { a with input := some path }

end Arguments

/-- What one argument is. -/
inductive Token where
  | help
  | viewport
  /-- An option with the value that stands in the same argument, if one does. -/
  | option (option : ValueOption) (attached : Option String)
  /-- All arguments from here on are no options. -/
  | endOfOptions
  | positional (text : String)
deriving DecidableEq, Repr

def valueOptions : List ValueOption := [.config, .title, .lang, .url]

/-- A long option behind its two hyphens. -/
def longOption (text : List Char) : Except UsageError Token :=
  let name := String.ofList (text.takeWhile (· != '='))
  let attached :=
    match text.dropWhile (· != '=') with
    | [] => none
    | _ :: value => some (String.ofList value)
  match valueOptions.find? (·.name = name), attached with
  | some option, attached => .ok (.option option attached)
  | none, none =>
    if name = "help" then .ok .help
    else if name = "viewport" then .ok .viewport
    else .error (.unknownOption ("--" ++ name))
  | none, some _ =>
    if name = "help" ∨ name = "viewport" then .error (.unexpectedValue name)
    else .error (.unknownOption ("--" ++ name))

/-- A letter option behind its hyphen. -/
def letterOption (letter : Char) (text : List Char) : Except UsageError Token :=
  match valueOptions.find? (·.letter = letter) with
  | some option =>
    let attached :=
      match text with
      | [] => none
      | '=' :: value => some (String.ofList value)
      | value => some (String.ofList value)
    .ok (.option option attached)
  | none =>
    if letter = 'h' then .ok .help
    else .error (.unknownOption (String.ofList ['-', letter]))

def Token.ofArgument (argument : String) : Except UsageError Token :=
  match argument.toList with
  | ['-', '-'] => .ok .endOfOptions
  | '-' :: '-' :: text => longOption text
  | '-' :: letter :: text => letterOption letter text
  | _ => .ok (.positional argument)

/-- An argument that is no value of the option before it. A lone hyphen is one. -/
def looksLikeOption (argument : String) : Bool :=
  match argument.toList with
  | '-' :: _ :: _ => true
  | _ => false

/-- The arguments behind those that `a` holds already. -/
def parseArguments (a : Arguments) : List String → Except UsageError Request
  | [] => .ok (.convert a)
  | argument :: rest => do
    match ← Token.ofArgument argument with
    | .help => return .help
    | .viewport => parseArguments (← a.giveViewport) rest
    | .positional path => parseArguments (← a.giveInput path) rest
    | .endOfOptions => return .convert (← rest.foldlM Arguments.giveInput a)
    | .option option (some value) => parseArguments (← a.give option value) rest
    | .option option none =>
      match rest with
      | [] => .error (.missingValue option.name)
      | value :: rest =>
        if looksLikeOption value then .error (.missingValue option.name)
        else parseArguments (← a.give option value) rest

def helpText : String :=
  "Wrap plain text paragraphs into an HTML document\n\n" ++
  "Usage: hypertext [OPTIONS] [INPUT]\n\n" ++
  "  [INPUT]              Body text, paragraphs separated by blank lines\n" ++
  "  -c, --config <FILE>  Document configuration\n" ++
  "  -t, --title <TITLE>  Page title\n" ++
  "  -l, --lang <LANG>    Document language\n" ++
  "  -u, --url <URL>      Resource to link, may be repeated\n" ++
  "      --viewport       Add the default viewport\n" ++
  "  -h, --help           Print help\n"

/-- The arguments of the program; without them, it ends with a text that says how to call it. -/
def readArguments (arguments : List String) : Except Exit Arguments :=
  match parseArguments {} arguments with
  | .error e => .error { code := 2, error := "error: " ++ e.message ++ "\n" }
  | .ok .help => .error { code := 0, output := helpText }
  | .ok (.convert a) => .ok a

end Hypertext.CommandLine
