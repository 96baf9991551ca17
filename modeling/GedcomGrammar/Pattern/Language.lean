/-
This file says which texts a pattern describes.
-/

import GedcomGrammar.Pattern

namespace GedcomGrammar

namespace Leaf

/-- A text is cut into a number of units of a leaf. -/
inductive Units (leaf : Leaf) : Nat → Text → Prop where
  | none : Units leaf 0 []
  | whole {count : Nat} {char : Char} {rest : Text} (role : leaf.role char = .whole)
      (later : Units leaf count rest) : Units leaf (count + 1) (char :: rest)
  | doubled {count : Nat} {char : Char} {rest : Text} (role : leaf.role char = .half)
      (later : Units leaf count rest) : Units leaf (count + 1) (char :: char :: rest)

/-- The values of a leaf have at least one unit and at most as many as there is room for. -/
def Accepts (bound : Nat) (value : Text) : Leaf → Prop
  | .text => ∃ count, 1 ≤ count ∧ count ≤ Pattern.room bound ∧ Units .text count value
  | .number => ∃ count, 1 ≤ count ∧ count ≤ Pattern.room bound ∧ Units .number count value
  | .digit => Units .digit 1 value
  | .null => value = []

end Leaf

/-- A pattern describes a text as a whole. -/
def Pattern.Accepts : Pattern → Text → Prop
  | .literal spelling, value => value = spelling
  | .leaf kind bound, value => kind.Accepts bound value
  | .sequence first second, value =>
      ∃ left right, value = left ++ right ∧ first.Accepts left ∧ second.Accepts right
  | .choice first second, value => first.Accepts value ∨ second.Accepts value
  | .group body, value => body.Accepts value

end GedcomGrammar
