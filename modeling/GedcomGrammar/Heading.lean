/-
This file says which lines are headers of primitives, and what a header pattern finds in a line.
-/

import GedcomGrammar.Primitive

namespace GedcomGrammar

/-- ASCII digits that write a number, with any zeros in front. -/
structure Text.Writes (digits : Text) (number : Nat) : Prop where
  nonempty : digits ≠ []
  each : ∀ char ∈ digits, '0' ≤ char ∧ char ≤ '9'
  value : Nat.ofDigitChars 10 digits 0 = number

namespace Primitive

/-- A label has capital letters, digits, underscores and colons. -/
structure IsLabel (label : Text) : Prop where
  nonempty : label ≠ []
  each : ∀ char ∈ label,
    'A' ≤ char ∧ char ≤ 'Z' ∨ '0' ≤ char ∧ char ≤ '9' ∨ char = '_' ∨ char = ':'

/-- The line that has a label, and the sizes between its braces. -/
def headerLine (label sizes : Text) : Text :=
  label ++ ":= \x7bSize=".toList ++ sizes ++ ['}']

/-- One number stands for both sizes, and a colon stands between two. -/
inductive WritesSizes : Text → Nat → Nat → Prop
  | single {digits : Text} {size : Nat} (written : digits.Writes size) :
      WritesSizes digits size size
  | range {lower upper : Text} {min max : Nat} (writtenMin : lower.Writes min)
      (writtenMax : upper.Writes max) : WritesSizes (lower ++ ':' :: upper) min max

/-- A line that is a header, with its label and its sizes in any order. -/
structure Heads (line label : Text) (min max : Nat) : Prop where
  isLabel : IsLabel label
  whole : ∃ sizes, line = headerLine label sizes ∧ WritesSizes sizes min max
  minFits : min < UInt64.size
  maxFits : max < UInt64.size

/-- What a line declares as a header. -/
inductive Heading (line : Text) : Except FormatError Primitive → Prop
  | declared {label : Text} {min max : Nat} (heads : Heads line label min max)
      (ordered : min ≤ max) : Heading line (.ok { label, sizeMin := min, sizeMax := max })
  | inverted {label : Text} {min max : Nat} (heads : Heads line label min max)
      (inverse : max < min) : Heading line (.error (.invertedSize min max))
  | malformed (headless : ∀ label min max, ¬Heads line label min max) :
      Heading line (.error (.header .primitive line))

/-- A class of decimal digits has the ASCII digits, perhaps others, and no plus sign. -/
structure DigitClass where
  contains : Char → Bool
  ascii : ∀ char, char.isDigit = true → contains char = true
  noPlus : contains '+' = false

/-- A nonempty run of digits of a class. -/
def DigitClass.Run (digit : DigitClass) (text : Text) : Prop :=
  text ≠ [] ∧ ∀ char ∈ text, digit.contains char = true

/-- The two groups that a header pattern with a class of digits finds in a line. -/
structure Captures (digit : DigitClass) (line label sizes : Text) : Prop where
  isLabel : IsLabel label
  whole : line = headerLine label sizes
  digits : digit.Run sizes ∨
    ∃ lower upper, sizes = lower ++ ':' :: upper ∧ digit.Run lower ∧ digit.Run upper

/-- The numbers of the groups are read, and one that cannot be read spoils the line. -/
def ofGroups (line label sizes : Text) : Except FormatError Primitive :=
  let (lower, upper) := (Text.cut? [':'] sizes).getD (sizes, sizes)
  match Text.signedNumber? sizeLimit lower, Text.signedNumber? sizeLimit upper with
  | some sizeMin, some sizeMax =>
      if sizeMax < sizeMin then .error (.invertedSize sizeMin sizeMax)
      else .ok { label, sizeMin, sizeMax }
  | _, _ => .error (.header .primitive line)

/-- A line is matched by a header pattern first, and its groups are read then. -/
inductive Scans (digit : DigitClass) (line : Text) : Except FormatError Primitive → Prop
  | matched {label sizes : Text} (captures : Captures digit line label sizes) :
      Scans digit line (ofGroups line label sizes)
  | unmatched (uncaptured : ∀ label sizes, ¬Captures digit line label sizes) :
      Scans digit line (.error (.header .primitive line))

end Primitive

end GedcomGrammar
