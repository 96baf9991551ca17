/-
This file says which texts spell the levels and the counts of rows.
-/

import GedcomGrammar.Heading
import GedcomGrammar.Row

namespace GedcomGrammar

/-- Digits that write a 32-bit number, perhaps after one plus sign. -/
def Text.WritesWord (text : Text) (number : UInt32) : Prop :=
  ∃ digits : Text, (text = digits ∨ text = '+' :: digits) ∧ digits.Writes number.toNat

/-- Depth zero has a spelling of its own besides the one with a plus sign. -/
inductive Level.Spells : Text → Level → Prop
  | root : Spells ['0'] .root
  | here : Spells ['n'] (.relative 0)
  | below {word : Text} {depth : UInt32} (written : word.WritesWord depth) :
      Spells ('+' :: word) (.relative depth)

inductive Count.Spells : Text → Count → Prop
  | unlimited : Spells ['M'] .unlimited
  | finite {word : Text} {number : UInt32} (written : word.WritesWord number) :
      Spells word (.finite number)

/-- Exactly the spellings are read, and of the spellings of a value one is written. -/
structure Text.Canonical {Value : Type} (Spells : Text → Value → Prop)
    (read : Text → Except FormatError Value) (fault : Text → FormatError)
    (write : Value → Text) : Prop where
  reads : ∀ text value, read text = .ok value ↔ Spells text value
  refuses : ∀ text error, read text = .error error ↔
    (∀ value, ¬Spells text value) ∧ error = fault text
  rereads : ∀ value, read (write value) = .ok value
  sameText : ∀ first second value other, read first = .ok value → read second = .ok other →
    (write value = write other ↔ ∃ common, Spells first common ∧ Spells second common)

/-- The last item of a written row is read as a range that takes the same numbers. -/
structure Row.Recounts (row : Row) (item : Text) (read : Occurrence) : Prop where
  last : (row.text.splitOn ' ').getLast? = some item
  braced : item = ['{'] ++ Text.decimal row.occurrence.min.toNat ++ [':'] ++
    row.occurrence.max.text ++ ['}']
  reads : Occurrence.ofText item = .ok read
  min : read.min = row.occurrence.min
  max : read.max = row.occurrence.max
  accepts : ∀ count, read.accepts count = row.accepts count
  within : ∀ count, row.accepts count = true ↔ row.occurrence.min ≤ count ∧
    ∀ number, row.occurrence.max = .finite number → count ≤ number

end GedcomGrammar
