/-
This file defines the four primitives whose values are described by characters alone.
-/

import GedcomGrammar.Text

namespace GedcomGrammar

/-- A leaf primitive has a fixed meaning, whether or not a grammar declares it. -/
inductive Leaf where
  | text
  | number
  | digit
  | null
  deriving DecidableEq

namespace Leaf

def label : Leaf → Text
  | .text => "TEXT".toList
  | .number => "NUMBER".toList
  | .digit => "DIGIT".toList
  | .null => "NULL".toList

/-- The leaf that a label names. -/
def ofLabel? (label : Text) : Option Leaf :=
  [Leaf.text, .number, .digit, .null].find? fun leaf => leaf.label == label

@[simp] theorem ofLabel?_label (leaf : Leaf) : ofLabel? leaf.label = some leaf := by
  cases leaf <;> rfl

/-- A character is a whole unit of a leaf value, one half of a doubled unit, or no part of one. -/
inductive Role where
  | whole
  | half
  | outside
  deriving DecidableEq

/-- Text has no control character, and an at sign stands in it only doubled. -/
def textRole (char : Char) : Role :=
  if char = '@' then .half
  else if char.toNat < 0x20 ∨ char = '\x7f' then .outside
  else .whole

def digitRole (char : Char) : Role :=
  if char.isDigit then .whole else .outside

def role : Leaf → Char → Role
  | .text => textRole
  | _ => digitRole

end Leaf

end GedcomGrammar
