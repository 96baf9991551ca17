/-
This file defines how at signs are doubled, so that a single one can have a meaning of its own.
-/

import GedcomGrammar.Text
import Mathlib.Algebra.Group.Even

namespace GedcomGrammar.Text

/-- Control characters are those before the space, and the one that deletes. -/
def IsControl (char : Char) : Prop :=
  char.toNat < 0x20 ∨ char = '\x7f'

def FreeOfControls (text : Text) : Prop :=
  ∀ char ∈ text, ¬IsControl char

/-- Every at sign is written twice. -/
def doubled (text : Text) : Text :=
  text.flatMap fun char => if char = '@' then ['@', '@'] else [char]

/-- Every run of at signs that no further one touches has an even length. -/
def HasEvenRuns (text : Text) : Prop :=
  ∀ before count after, text = before ++ List.replicate count '@' ++ after →
    before.getLast? ≠ some '@' → after.head? ≠ some '@' → Even count

end GedcomGrammar.Text
