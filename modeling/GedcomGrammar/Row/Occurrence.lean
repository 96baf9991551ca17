/-
This file defines how often a row may occur.
-/

import GedcomGrammar.FormatError

namespace GedcomGrammar

/-- The upper bound of an occurrence range is a number or missing. -/
inductive Count where
  | finite (number : UInt32)
  | unlimited
  deriving DecidableEq

namespace Count

def text : Count → Text
  | .finite number => Text.decimal number.toNat
  | .unlimited => ['M']

def ofText (text : Text) : Except FormatError Count :=
  if text = ['M'] then .ok .unlimited
  else
    match Text.word? text with
    | some number => .ok (.finite number)
    | none => .error (.count text)

/-- An unlimited count comes after every number. -/
def order : Count → Count → Ordering
  | .finite left, .finite right => compare left right
  | .finite _, .unlimited => .lt
  | .unlimited, .finite _ => .gt
  | .unlimited, .unlimited => .eq

end Count

/-- The range of the number of times that a row occurs. -/
structure Occurrence where
  min : UInt32
  max : Count
  deriving DecidableEq

namespace Occurrence

def text (occurrence : Occurrence) : Text :=
  '{' :: Text.decimal occurrence.min.toNat ++ ':' :: occurrence.max.text ++ ['}']

/-- The range stands between braces, of which any number is taken. -/
def ofText (text : Text) : Except FormatError Occurrence :=
  match Text.cut? [':'] (text.trim fun char => char == '{' || char == '}') with
  | none => .error (.count text)
  | some (min, max) =>
      match Text.word? min, Count.ofText max with
      | some min, .ok max => .ok ⟨min, max⟩
      | _, _ => .error (.count text)

def accepts (occurrence : Occurrence) (count : UInt32) : Bool :=
  occurrence.min ≤ count && (Count.finite count).order occurrence.max != .gt

end Occurrence

end GedcomGrammar
