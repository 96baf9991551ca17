/-
This file joins the three kinds of element that a grammar defines.
-/

import GedcomGrammar.Primitive
import GedcomGrammar.Structure
import GedcomGrammar.Tag

namespace GedcomGrammar

inductive Element where
  | primitive (content : Primitive)
  | tag (content : Tag)
  | struct (content : Structure)
  deriving DecidableEq

namespace Element

def kind : Element → ElementKind
  | .primitive _ => .primitive
  | .tag _ => .tag
  | .struct _ => .struct

def identifier : Element → Text
  | .primitive content => content.label
  | .tag content => content.code
  | .struct content => content.label

/-- Elements of different kinds may share an identifier. -/
abbrev Key := ElementKind × Text

def key (element : Element) : Key :=
  (element.kind, element.identifier)

def text : Element → Text
  | .primitive content => content.text
  | .tag content => content.text
  | .struct content => content.text

/-- The element after one more line of its text. -/
def addLine (element : Element) (line : Text) : Except RowError Element :=
  match element with
  | .primitive content => .ok (.primitive (content.addLine line))
  | .tag content => .ok (.tag (content.addLine line))
  | .struct content => (content.addLine line).map .struct

/-- The element that a header of a kind declares. -/
def ofHeader (kind : ElementKind) (line : Text) : Except FormatError Element :=
  match kind with
  | .primitive => (Primitive.ofHeader line).map .primitive
  | .tag => (Tag.ofHeader line).map .tag
  | .struct => (Structure.ofHeader line).map .struct

/-- A header mark stands in every header line and in no other line. -/
def isHeader (line : Text) : Bool :=
  (Text.cut? [':', '='] line).isSome

/-- The end of a header line tells the kind of its element. -/
def headerKind (line : Text) : ElementKind :=
  if (Text.dropTail? ['}'] line).isSome then .primitive
  else if (Text.dropTail? ['}', ':', '='] line).isSome then .tag
  else .struct

end Element

end GedcomGrammar
