import Hypertext.CommandLine.Options
import Hypertext.Session.Step
import Hypertext.Toml.Standard

/-! # The program

What the other modules leave open is settled here: the program reads its options and configuration
files with the readers of this project. -/

namespace Hypertext

/-- The configuration that a TOML document describes. -/
def DocumentConfig.ofToml (text : String) : Except ConfigError DocumentConfig :=
  (load Toml.standard text).mapError (·.told text)

/-- A step that makes a document of the text of a configuration file, if one is given. -/
def Step.document (builder : String) (toml : Option String) (settings : List (Setting ValueExpr)) :
    Step :=
  .newDocument builder ((toml.map DocumentConfig.ofToml).getD (.ok {})) settings

namespace CommandLine

def libraries : Libraries where
  arguments := readArguments
  toml := Toml.standard

def run {m : Type → Type} [Monad m] (w : World m) (arguments : List String) : m Exit :=
  execute libraries w arguments

end CommandLine

end Hypertext
