/-
This file writes and reads decimal numbers.
-/

import GedcomGrammar.Text

namespace GedcomGrammar.Text

/-- A number is written without leading zeros. -/
def decimal (number : Nat) : Text :=
  Nat.toDigits 10 number

/-- A number is a nonempty run of ASCII digits whose value stays below the limit. -/
def number? (limit : Nat) (text : Text) : Option Nat :=
  if text ≠ [] ∧ text.all Char.isDigit = true ∧ Nat.ofDigitChars 10 text 0 < limit then
    some (Nat.ofDigitChars 10 text 0)
  else none

/-- One plus sign may stand before the digits. -/
def signedNumber? (limit : Nat) : Text → Option Nat
  | '+' :: digits => number? limit digits
  | text => number? limit text

/-- A 32-bit number with an optional plus sign. -/
def word? (text : Text) : Option UInt32 :=
  (signedNumber? UInt32.size text).map UInt32.ofNat

end GedcomGrammar.Text
