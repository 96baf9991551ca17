/-
This file defines primitives: value types with a size range, alternatives and terms.
-/

import GedcomGrammar.Alternatives
import GedcomGrammar.FormatError
import GedcomGrammar.Keyed

namespace GedcomGrammar

/-- A term is a name with its gloss. -/
structure Term where
  name : Text
  gloss : Text
  deriving DecidableEq

namespace Term

/-- The name and the gloss of a term stand around an equals sign. -/
def separator : Text := " = ".toList

/-- A line without a separator is a name without a gloss. -/
def ofLine (line : Text) : Term :=
  match Text.cut? separator line with
  | some (name, gloss) => ⟨name, gloss⟩
  | none => ⟨line, []⟩

def text (term : Term) : Text :=
  term.name ++ separator ++ term.gloss

end Term

/-- The sizes count characters, and the terms are missing until a line opens their list. -/
structure Primitive where
  label : Text
  sizeMin : Nat
  sizeMax : Nat
  description : Text := []
  terms : Option (List Term) := none
  alternatives : Alternatives := .default
  deriving DecidableEq

namespace Primitive

/-- The gloss of a term. -/
def gloss? (primitive : Primitive) (name : Text) : Option Text :=
  (Keyed.find? Term.name name (primitive.terms.getD [])).map Term.gloss

/-- Sizes are 64-bit numbers. -/
def sizeLimit : Nat := UInt64.size

def isLabelChar (char : Char) : Bool :=
  char.isUpper || char.isDigit || char == '_' || char == ':'

/-- One size stands for both ends of its range. -/
def sizes? (text : Text) : Option (Nat × Nat) :=
  match Text.cut? [':'] text with
  | some (min, max) => do
      let min ← Text.number? sizeLimit min
      let max ← Text.number? sizeLimit max
      some (min, max)
  | none => (Text.number? sizeLimit text).map fun size => (size, size)

/-- The label and the sizes of a header line. -/
def header? (line : Text) : Option (Text × Nat × Nat) := do
  let (label, rest) ← Text.cut? (":= ".toList ++ '{' :: "Size=".toList) line
  let sizes ← Text.dropTail? ['}'] rest
  if label ≠ [] ∧ label.all isLabelChar = true then
    (sizes? sizes).map fun sizes => (label, sizes)
  else none

def ofHeader (line : Text) : Except FormatError Primitive :=
  match header? line with
  | none => .error (.header .primitive line)
  | some (label, sizeMin, sizeMax) =>
      if sizeMax < sizeMin then .error (.invertedSize sizeMin sizeMax)
      else .ok { label, sizeMin, sizeMax }

/-- This line opens the list of terms. -/
def termsLine : Text := "Where:".toList

/-- The alternatives of a line that lists them, without its outer brackets. -/
def alternatives? : Text → Option Alternatives
  | '[' :: rest => some (.ofText ((Text.dropTail? [']'] rest).getD rest))
  | _ => none

/-- A line lists alternatives, opens or extends the terms, or extends the description. -/
def addLine (primitive : Primitive) (line : Text) : Primitive :=
  match alternatives? line with
  | some alternatives => { primitive with alternatives }
  | none =>
      if line = termsLine then { primitive with terms := some [] }
      else
        match primitive.terms with
        | none => { primitive with description := primitive.description.addLine line }
        | some terms =>
            if line = [] then primitive
            else { primitive with terms := some (Keyed.insert Term.name (.ofLine line) terms) }

def sizeText (primitive : Primitive) : Text :=
  if primitive.sizeMax = primitive.sizeMin then Text.decimal primitive.sizeMin
  else Text.decimal primitive.sizeMin ++ ':' :: Text.decimal primitive.sizeMax

def headerText (primitive : Primitive) : Text :=
  primitive.label ++ ":= ".toList ++ '{' :: "Size=".toList ++ primitive.sizeText ++ ['}']

/-- Default alternatives and an empty list of terms are not written. -/
def parts (primitive : Primitive) : List Text :=
  [primitive.headerText] ++
    (if primitive.alternatives.isDefault then []
      else ['[' :: primitive.alternatives.text ++ [']']]) ++
    (if primitive.description = [] then [] else [primitive.description]) ++
    match primitive.terms with
    | none => []
    | some [] => []
    | some terms => termsLine :: terms.map Term.text

def text (primitive : Primitive) : Text :=
  Text.joinWith ['\n'] primitive.parts

end Primitive

end GedcomGrammar
