import Hypertext.CommandLine.Program

/-! # Command line -/

namespace Hypertext

open CommandLine

/-- The number that the system gives to an error. It may arrive negated, as a word. -/
def systemNumber? : IO.Error → Option Nat
  | .noFileOrDirectory _ code _ | .inappropriateType _ code _ | .invalidArgument _ code _
  | .permissionDenied _ code _ =>
    some (if code.toNat < 0x80000000 then code.toNat else 0x100000000 - code.toNat)
  | _ => none

/-- The program's words for what the system reports. -/
def readErrorOf (e : IO.Error) : ReadError :=
  match systemNumber? e with
  | some 2 => .notFound
  | some 13 => .permissionDenied
  | some 20 => .notDirectory
  | some 21 => .isDirectory
  | some 36 => .nameTooLong
  | _ => .other (toString e)

def reading (read : IO ByteArray) : IO (Except ReadError ByteArray) := do
  match ← read.toBaseIO with
  | .ok bytes => return .ok bytes
  | .error e => return .error (readErrorOf e)

partial def readToEnd (stream : IO.FS.Stream) (bytes : ByteArray) : IO ByteArray := do
  let more ← stream.read 65536
  if more.isEmpty then return bytes else readToEnd stream (bytes ++ more)

/-- The files of the system, and its standard input. -/
def system (interactive : Bool) : World IO where
  file path := reading (IO.FS.readBinFile path)
  input := do reading (readToEnd (← IO.getStdin) .empty)
  interactive

end Hypertext

def main (arguments : List String) : IO UInt32 := do
  let interactive ← (← IO.getStdin).isTty
  let exit ← Hypertext.CommandLine.run (Hypertext.system interactive) arguments
  (← IO.getStdout).putStr exit.output
  (← IO.getStderr).putStr exit.error
  return exit.code.toUInt32
