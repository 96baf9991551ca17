/-
This file defines schemas and how they grow line by line.
-/

import GedcomGrammar.Element
import GedcomGrammar.FileError

namespace GedcomGrammar

/-- A grammar is rejected for one of its lines or for a file that cannot be read. -/
inductive ParseError where
  | format (error : FormatError)
  | row (error : RowError)
  | orphanLine (line : Text)
  | atLine (number : Nat) (error : ParseError)
  | unreadable (path : Text) (error : FileError)
  deriving DecidableEq

def ParseError.message : ParseError → Text
  | .format error => "Format error: ".toList ++ error.message
  | .row error => "Row error: ".toList ++ error.message
  | .orphanLine line => "Continuation line before any definition: ".toList ++ line.quoted
  | .atLine number error =>
      "line ".toList ++ Text.decimal number ++ ": ".toList ++ error.message
  | .unreadable path error => "Failed to read ".toList ++ path ++ ": ".toList ++ error.message

/--
The elements of a grammar, in the order of their first declaration.
The open element takes the next line, and blank lines wait until more of its text follows.
-/
structure Schema where
  elements : List Element := []
  depthLimit : Nat := 32
  opened : Option Element.Key := none
  blanks : Nat := 0
  deriving DecidableEq

namespace Schema

def find? (schema : Schema) (key : Element.Key) : Option Element :=
  Keyed.find? Element.key key schema.elements

def primitive? (schema : Schema) (label : Text) : Option Primitive :=
  match schema.find? (.primitive, label) with
  | some (.primitive primitive) => some primitive
  | _ => none

def tag? (schema : Schema) (code : Text) : Option Tag :=
  match schema.find? (.tag, code) with
  | some (.tag tag) => some tag
  | _ => none

def structure? (schema : Schema) (label : Text) : Option Structure :=
  match schema.find? (.struct, label) with
  | some (.struct shape) => some shape
  | _ => none

def primitives (schema : Schema) : List Primitive :=
  schema.elements.filterMap fun
    | .primitive primitive => some primitive
    | _ => none

def tags (schema : Schema) : List Tag :=
  schema.elements.filterMap fun
    | .tag tag => some tag
    | _ => none

def structures (schema : Schema) : List Structure :=
  schema.elements.filterMap fun
    | .struct shape => some shape
    | _ => none

/-- A later declaration of an element replaces the earlier one in its place. -/
def insert (schema : Schema) (element : Element) : Schema :=
  { schema with elements := Keyed.insert Element.key element schema.elements }

/-- No element takes the next line. -/
def close (schema : Schema) : Schema :=
  { schema with opened := none, blanks := 0 }

/-- The open element takes one line of its text. -/
def extend (schema : Schema) (line : Text) : Except ParseError Schema :=
  match schema.opened.bind schema.find? with
  | none => .error (.orphanLine line)
  | some element =>
      match element.addLine line with
      | .error error => .error (.row error)
      | .ok extended => .ok (schema.insert extended)

/-- A blank line is refused by no element. -/
def extendBlank (schema : Schema) : Schema :=
  match schema.extend [] with
  | .error _ => schema
  | .ok extended => extended

/-- The open element takes the blank lines that were waiting. -/
def settleBlanks (schema : Schema) : Schema :=
  { schema.blanks.repeat extendBlank schema with blanks := 0 }

/-- A header line declares an element and opens it. -/
def addHeader (schema : Schema) (line : Text) : Schema × Option ParseError :=
  match Element.ofHeader (Element.headerKind line) line with
  | .error error => ({ schema with blanks := 0 }, some (.format error))
  | .ok element =>
      ({ schema.insert element with opened := some element.key, blanks := 0 }, none)

/-- Any other line is added to the open element. -/
def addContinuation (schema : Schema) (line : Text) : Schema × Option ParseError :=
  let settled := schema.settleBlanks
  match settled.extend line with
  | .error error => (settled, some error)
  | .ok extended => (extended, none)

/-- A blank line waits if an element is open. -/
def addBlank (schema : Schema) : Schema :=
  if schema.opened.isSome then { schema with blanks := schema.blanks + 1 } else schema

/-- The schema after one more line, and the error if the line is refused. -/
def addLine (schema : Schema) (line : Text) : Schema × Option ParseError :=
  match Text.withoutLineEnd line with
  | [] => (schema.addBlank, none)
  | content =>
      if Element.isHeader content then schema.addHeader content
      else schema.addContinuation content

/-- Lines are added up to the first one that is refused, with its number in the error. -/
def addLines (schema : Schema) (number : Nat) : List Text → Schema × Option ParseError
  | [] => (schema, none)
  | line :: rest =>
      match schema.addLine line with
      | (refused, some error) => (refused, some (.atLine number error))
      | (extended, none) => extended.addLines (number + 1) rest

/-- No element is open before the lines of a text or after all of them. -/
def addText (schema : Schema) (text : Text) : Schema × Option ParseError :=
  match schema.close.addLines 1 text.lines with
  | (refused, some error) => (refused, some error)
  | (extended, none) => (extended.close, none)

/-- The schema of one text. -/
def ofText (text : Text) : Except ParseError Schema :=
  match ({} : Schema).addText text with
  | (_, some error) => .error error
  | (schema, none) => .ok schema

/-- The elements stand one blank line apart. -/
def text (schema : Schema) : Text :=
  Text.joinWith ['\n', '\n'] (schema.elements.map Element.text)

/-- The text that the schema of a grammar has. -/
def canonicalText (source : Text) : Except ParseError Text :=
  (ofText source).map text

end Schema

end GedcomGrammar
