/-
This file says what is asked of the compiler of regular expressions, whose limits are its own.
-/

import GedcomGrammar.Pattern

namespace GedcomGrammar.Regex

/-- A compiler refuses an expression for its form or for its size, and gives the reason. -/
inductive Refusal where
  | malformed (reason : Text)
  | tooLarge (reason : Text)
  deriving DecidableEq

def Refusal.reason : Refusal → Text
  | .malformed reason => reason
  | .tooLarge reason => reason

/-- The limits of a compiler show only in what it refuses. -/
structure Compiler where
  refusal? : Text → Option Refusal

namespace Compiler

/-- A compiler without limits. -/
def unlimited : Compiler where
  refusal? _ := none

end Compiler

end GedcomGrammar.Regex
