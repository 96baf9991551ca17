/-
This file says how a grammar may be spaced out, with other line ends and more blank lines.
-/

import GedcomGrammar.Schema

namespace GedcomGrammar

namespace Text

/-- The other text has any number of carriage returns more before its line ends. -/
inductive Returns : Text → Text → Prop where
  | stop (count : Nat) : Returns [] (List.replicate count '\r')
  | feed (count : Nat) {text other : Text} (later : Returns text other) :
      Returns ('\n' :: text) (List.replicate count '\r' ++ '\n' :: other)
  | char (char : Char) {text other : Text} (later : Returns text other) :
      Returns (char :: text) (char :: other)

/-- A carriage return goes before every line feed. -/
def withReturns (text : Text) : Text :=
  text.flatMap fun char => if char = '\n' then ['\r', '\n'] else [char]

/-- Every line gets so many blank lines before it, and the last gap stands behind all lines. -/
def widen : List Nat → List Text → List Text
  | gaps, [] => List.replicate (gaps.headD 0) []
  | gaps, line :: rest => List.replicate (gaps.headD 0) [] ++ line :: widen gaps.tail rest

/-- The text with blank lines in its gaps. -/
def widened (gaps : List Nat) (text : Text) : Text :=
  joinWith ['\n'] (widen gaps (text.splitOn '\n'))

/--
Blank lines stand only before the first line, behind the last, and next to header lines.
The first argument tells whether the line before was a header, or there was none.
-/
def separates : Bool → List Nat → List Text → Bool
  | _, _, [] => true
  | free, gaps, line :: rest =>
      (gaps.headD 0 == 0 || free || Element.isHeader line.withoutLineEnd) &&
        separates (Element.isHeader line.withoutLineEnd) gaps.tail rest

end Text

/-- Lines with other numbers, and the same errors in them. -/
def ParseError.renumber (place : Nat → Nat) : ParseError → ParseError
  | .atLine number error => .atLine (place number) error
  | error => error

end GedcomGrammar
