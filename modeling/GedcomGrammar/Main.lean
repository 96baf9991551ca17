/-
This file is the program: it carries out the script of its command line.
-/

import GedcomGrammar.CommandLine.Run

namespace GedcomGrammar.CommandLine

/-- The name under which the program explains itself. -/
def programName : Text := "gedgram".toList

/-- The reason for which the system refused a file; its codes may be negated. -/
def fileError : IO.Error → FileError
  | .noFileOrDirectory _ _ _ => .notFound
  | .inappropriateType _ code _ =>
      if code = 20 ∨ code = 0 - 20 then .notDirectory else .isDirectory
  | .invalidArgument _ code _ =>
      if code = 36 ∨ code = 0 - 36 then .nameTooLong
      else .other "Invalid argument (os error 22)".toList
  | .permissionDenied _ _ _ => .other "Permission denied (os error 13)".toList
  | error => .other (toString error).toList

def readText (path : Text) : IO (Except FileError Text) := do
  match ← (IO.FS.readBinFile (String.ofList path)).toBaseIO with
  | .error error => return .error (fileError error)
  | .ok bytes =>
      match String.fromUTF8? bytes with
      | none => return .error .invalidText
      | some text => return .ok text.toList

def writeText (path content : Text) : IO (Option FileError) := do
  match ← (IO.FS.writeFile (String.ofList path) (String.ofList content)).toBaseIO with
  | .error error => return some (fileError error)
  | .ok () => return none

def Script.perform {Result : Type} : Script Result → IO Result
  | .done result => return result
  | .read path next => do (next (← readText path)).perform
  | .write path content next => do (next (← writeText path content)).perform

/-- The program, with a compiler for the patterns that it makes. -/
def run (compiler : Regex.Compiler) (arguments : List String) : IO UInt32 := do
  let finished ← (script compiler programName (arguments.map String.toList)).perform
  (← IO.getStdout).putStr (String.ofList finished.output)
  (← IO.getStderr).putStr (String.ofList finished.errors)
  return finished.code.toUInt32

end GedcomGrammar.CommandLine
