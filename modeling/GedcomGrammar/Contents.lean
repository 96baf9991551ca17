/-
This file says what the lines below a header leave in an element, by looking at all of them at once.
-/

import GedcomGrammar.Element

namespace GedcomGrammar

/-- The lines stand below each other, without the blank ones in front. -/
def Text.paragraph (lines : List Text) : Text :=
  joinWith ['\n'] (lines.dropWhile List.isEmpty)

/-- The last of the terms with a name. -/
def Term.latest? (name : Text) (terms : List Term) : Option Term :=
  terms.reverse.find? fun term => term.name = name

/-- Every name stands where it comes first, with the gloss that it has last. -/
def Term.collect (terms : List Term) : List Term :=
  (terms.map name).eraseDups.filterMap fun name => latest? name terms

namespace Primitive

/-- A line that starts with an opening bracket lists alternatives. -/
def listsAlternatives (line : Text) : Bool :=
  line.head? == some '['

/-- The line without its first bracket, and without its final one if it has one. -/
def unbracketed (line : Text) : Text :=
  if line.tail.getLast? = some ']' then line.tail.dropLast else line.tail

/-- The last list of alternatives counts. -/
def alternativesOf (lines : List Text) : Alternatives :=
  match (lines.filter listsAlternatives).getLast? with
  | some line => .ofText (unbracketed line)
  | none => .default

/-- All other lines above the first list of terms describe the primitive. -/
def descriptionOf (lines : List Text) : Text :=
  .paragraph ((lines.takeWhile (· ≠ termsLine)).filter fun line => !listsAlternatives line)

/-- The lines behind the last one that opens a list of terms are terms, unless they are blank. -/
def termsBehind (lines : List Text) : List Term :=
  ((lines.reverse.takeWhile (· ≠ termsLine)).reverse.filter fun line =>
    !listsAlternatives line && !line.isEmpty).map .ofLine

/-- Without a line that opens it there is no list of terms. -/
def termsOf (lines : List Text) : Option (List Term) :=
  if termsLine ∈ lines then some (Term.collect (termsBehind lines)) else none

/-- What a primitive that started from its header alone holds after some lines. -/
structure Contents (header : Primitive) (lines : List Text) (primitive : Primitive) : Prop where
  label : primitive.label = header.label
  sizeMin : primitive.sizeMin = header.sizeMin
  sizeMax : primitive.sizeMax = header.sizeMax
  alternatives : primitive.alternatives = alternativesOf lines
  description : primitive.description = descriptionOf lines
  terms : primitive.terms = termsOf lines

end Primitive

namespace Structure

/-- A line that is no row and stands neither between groups nor around them. -/
def isText (line : Text) : Bool :=
  !startsRow line && line ∉ [['|'], ['['], [']']]

/-- The rows between two bars make a group. -/
def groupsOf (lines : List Text) : Except RowError (List (List Row)) :=
  (lines.splitOn ['|']).mapM fun part => (part.filter startsRow).mapM Row.ofLine

/-- Below the first row blank lines tell nothing. -/
def toldLines (lines : List Text) : List Text :=
  lines.takeWhile (fun line => !startsRow line) ++
    (lines.dropWhile fun line => !startsRow line).filter fun line => !line.isEmpty

def descriptionOf (lines : List Text) : Text :=
  .paragraph ((toldLines lines).filter isText)

/-- What a structure that started from its label alone holds after some lines. -/
structure Contents (name : Text) (lines : List Text) (shape : Structure) : Prop where
  label : shape.label = name
  count : shape.groups.length = lines.count ['|'] + 1
  groups : groupsOf lines = .ok shape.groups
  rows : (lines.filter startsRow).mapM Row.ofLine = .ok shape.rows
  description : shape.description = descriptionOf lines

/-- A line taken in place; a row is read before anything changes. -/
def takeLine (line : Text) : ExceptT RowError (StateM Structure) Unit := do
  if startsRow line then
    let row ← MonadExcept.ofExcept (Row.ofLine line)
    modify fun shape => shape.addRow row
  else if line = ['|'] then
    modify addGroup
  else if line = [] ∧ (← get).rows ≠ [] then
    return
  else if line ≠ ['['] ∧ line ≠ [']'] then
    modify fun shape => { shape with description := shape.description.addLine line }

end Structure

end GedcomGrammar
