/-
This file defines the level at which a row stands.
-/

import GedcomGrammar.FormatError

namespace GedcomGrammar

/-- A row stands at the root or at a depth below the place where its structure is used. -/
inductive Level where
  | root
  | relative (depth : UInt32)
  deriving DecidableEq

namespace Level

/-- Depth zero is written as `n`, and every other depth with a plus sign. -/
def text : Level → Text
  | .root => ['0']
  | .relative depth => if depth = 0 then ['n'] else '+' :: Text.decimal depth.toNat

def ofText (text : Text) : Except FormatError Level :=
  match text with
  | ['0'] => .ok .root
  | ['n'] => .ok (.relative 0)
  | '+' :: depth =>
      match Text.word? depth with
      | some depth => .ok (.relative depth)
      | none => .error (.level text)
  | _ => .error (.level text)

end Level

end GedcomGrammar
