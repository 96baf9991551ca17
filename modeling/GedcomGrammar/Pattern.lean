/-
This file defines the patterns that values are matched against, and their written form.
-/

import GedcomGrammar.Leaf
import GedcomGrammar.Regex
import GedcomGrammar.Text.Decimal

namespace GedcomGrammar

/-- A pattern is built from literal text and bounded leaves. -/
inductive Pattern where
  | literal (spelling : Text)
  | leaf (kind : Leaf) (bound : Nat)
  | sequence (first second : Pattern)
  | choice (first second : Pattern)
  | group (body : Pattern)
  deriving DecidableEq

namespace Pattern

/-- The pattern of one text after another. -/
def concat : List Pattern → Pattern
  | [] => .literal []
  | first :: rest => .sequence first (concat rest)

/-- The pattern of any one of the listed texts. -/
def anyOf : List Pattern → Pattern
  | [] => .literal []
  | [last] => last
  | first :: rest => .choice first (anyOf rest)

/-- A leaf has room for at least one unit, even under a bound of zero. -/
def room (bound : Nat) : Nat :=
  max bound 1

/-- A backslash before a special character makes it stand for itself. -/
def escaped (literal : Text) : Text :=
  literal.flatMap fun char => if Regex.isMeta char then ['\\', char] else [char]

/-- The suffix for one repetition up to as many as there is room for. -/
def repetition (bound : Nat) : Text :=
  ['{', '1', ','] ++ Text.decimal (room bound) ++ ['}']

def textUnit : Text := "(?:[^\\x00-\\x1F\\x7F@]|@@)".toList

def digitUnit : Text := "[0-9]".toList

def leafText (bound : Nat) : Leaf → Text
  | .text => textUnit ++ repetition bound
  | .number => digitUnit ++ repetition bound
  | .digit => digitUnit
  | .null => []

/-- The pattern as a regular expression. -/
def text : Pattern → Text
  | .literal spelling => escaped spelling
  | .leaf kind bound => leafText bound kind
  | .sequence first second => first.text ++ second.text
  | .choice first second => first.text ++ '|' :: second.text
  | .group body => '(' :: body.text ++ [')']

/-- The regular expression of a complete value. -/
def anchoredText (pattern : Pattern) : Text :=
  "^(?:".toList ++ pattern.text ++ ")$".toList

end Pattern

end GedcomGrammar
