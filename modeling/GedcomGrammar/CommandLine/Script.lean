/-
This file defines scripts, which say what a run reads and writes without doing it.
-/

import GedcomGrammar.FileError

namespace GedcomGrammar.CommandLine

/-- A script asks for one file at a time and goes on with the answer. -/
inductive Script (Result : Type) where
  | done (result : Result)
  | read (path : Text) (next : Except FileError Text → Script Result)
  | write (path content : Text) (next : Option FileError → Script Result)

namespace Script

def bind {First Second : Type} (first : Script First) (next : First → Script Second) :
    Script Second :=
  match first with
  | .done result => next result
  | .read path after => .read path fun answer => (after answer).bind next
  | .write path content after => .write path content fun answer => (after answer).bind next

@[simp] theorem bind_done {First Second : Type} (result : First)
    (next : First → Script Second) : (Script.done result).bind next = next result := rfl

end Script

/-- What a finished run leaves besides its files. -/
structure Exit where
  code : Nat
  output : Text := []
  errors : Text := []
  deriving DecidableEq

end GedcomGrammar.CommandLine
