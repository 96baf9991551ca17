/-
This file matches values against patterns in one pass for each part of the pattern.
-/

import GedcomGrammar.Pattern

namespace GedcomGrammar.Pattern

/-- One mark for each place in a value, its start and its end included. -/
abbrev Marks := List Bool

/-- The marks move over one accepted character. -/
def shift (accepted : Char → Bool) (value : Text) (marks : Marks) : Marks :=
  false :: List.zipWith (fun mark char => mark && accepted char) marks value

/-- The fewest units that lead to a place from any mark before it, if any do. -/
def withinBound (bound : Nat) (fewest : Option Nat) : Bool :=
  fewest.any (· ≤ bound)

/--
The marks move over one or more units of a leaf.
`fewest` leads to the current place, and `opened` led to the place before an open half.
-/
def unitRun (kind : Leaf) (bound : Nat) (fewest opened : Option Nat) : Text → Marks → Marks
  | char :: value, mark :: marks =>
      let best := if mark then some 0 else fewest
      withinBound bound fewest ::
        match kind.role char with
        | .whole => unitRun kind bound (best.map (· + 1)) none value marks
        | .half => unitRun kind bound (opened.map (· + 1)) best value marks
        | .outside => unitRun kind bound none none value marks
  | _, _ => [withinBound bound fewest]

def leafAdvance (bound : Nat) (value : Text) (marks : Marks) : Leaf → Marks
  | .text => unitRun .text (room bound) none none value marks
  | .number => unitRun .number (room bound) none none value marks
  | .digit => unitRun .digit 1 none none value marks
  | .null => marks

/-- The places that a pattern leads to from the marked places. -/
def advance (value : Text) : Pattern → Marks → Marks
  | .literal spelling, marks =>
      spelling.foldl (fun reached char => shift (· == char) value reached) marks
  | .leaf kind bound, marks => leafAdvance bound value marks kind
  | .sequence first second, marks => second.advance value (first.advance value marks)
  | .choice first second, marks =>
      List.zipWith or (first.advance value marks) (second.advance value marks)
  | .group body, marks => body.advance value marks

/-- A pattern accepts a value when it leads from the start to the end. -/
def accepts (pattern : Pattern) (value : Text) : Bool :=
  (pattern.advance value (true :: value.map fun _ => false)).getLast?.getD false

end GedcomGrammar.Pattern
