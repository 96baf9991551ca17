/-
This file lists the repetitions in a regular expression.
-/

import GedcomGrammar.Regex

namespace GedcomGrammar.Regex

/-- A repetition has a body and the fewest and the most times that it is taken. -/
structure Repetition where
  body : Regex
  least : Nat
  most : Nat
  deriving DecidableEq

/-- The repetitions in the order in which they end. -/
def repetitions : Regex → List Repetition
  | .empty => []
  | .single _ => []
  | .set _ _ => []
  | .start => []
  | .finish => []
  | .sequence first second => first.repetitions ++ second.repetitions
  | .either first second => first.repetitions ++ second.repetitions
  | .repeated body least most => body.repetitions ++ [⟨body, least, most⟩]

end GedcomGrammar.Regex
