/-
This file defines tags: codes with a label and a description.
-/

import GedcomGrammar.FormatError

namespace GedcomGrammar

structure Tag where
  code : Text
  label : Text
  description : Text := []
  deriving DecidableEq

namespace Tag

def isCodeChar (char : Char) : Bool :=
  char.isUpper || char.isDigit

def isLabelChar (char : Char) : Bool :=
  isCodeChar char || char == '_' || char == '-'

/-- The code and the label that start a line; text after its header mark is ignored. -/
def header? (line : Text) : Option (Text × Text) := do
  let code := line.takeWhile isCodeChar
  let rest ← Text.dropLead? [' ', '{'] (line.dropWhile isCodeChar)
  let label := rest.takeWhile isLabelChar
  let _ ← Text.dropLead? ['}', ':', '='] (rest.dropWhile isLabelChar)
  if code ≠ [] ∧ label ≠ [] then some (code, label) else none

def ofHeader (line : Text) : Except FormatError Tag :=
  match header? line with
  | none => .error (.header .tag line)
  | some (code, label) => .ok { code, label }

/-- Every line extends the description. -/
def addLine (tag : Tag) (line : Text) : Tag :=
  { tag with description := tag.description.addLine line }

def headerText (tag : Tag) : Text :=
  tag.code ++ [' ', '{'] ++ tag.label ++ ['}', ':', '=']

def text (tag : Tag) : Text :=
  if tag.description = [] then tag.headerText
  else tag.headerText ++ '\n' :: tag.description

end Tag

end GedcomGrammar
