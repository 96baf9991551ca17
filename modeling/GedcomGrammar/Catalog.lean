/-
This file defines catalogs, which keep the elements of a grammar in one registry for each kind.
-/

import GedcomGrammar.Registry
import GedcomGrammar.Schema

namespace GedcomGrammar

namespace ElementKind

/-- What an element of a kind holds. -/
abbrev Content : ElementKind → Type
  | .primitive => Primitive
  | .tag => Tag
  | .struct => Structure

def element : (kind : ElementKind) → kind.Content → Element
  | .primitive, content => .primitive content
  | .tag, content => .tag content
  | .struct, content => .struct content

def identifier : (kind : ElementKind) → kind.Content → Text
  | .primitive, content => content.label
  | .tag, content => content.code
  | .struct, content => content.label

def ofHeader : (kind : ElementKind) → Text → Except FormatError kind.Content
  | .primitive, line => Primitive.ofHeader line
  | .tag, line => Tag.ofHeader line
  | .struct, line => Structure.ofHeader line

def addLine : (kind : ElementKind) → kind.Content → Text → Except RowError kind.Content
  | .primitive, content, line => .ok (content.addLine line)
  | .tag, content, line => .ok (content.addLine line)
  | .struct, content, line => content.addLine line

end ElementKind

/-- A slot in the registry of a kind. -/
abbrev Spot := ElementKind × Nat

/-- The order lists the spots of all registries, and the open spot takes the next line. -/
structure Catalog where
  primitives : Registry Primitive := {}
  tags : Registry Tag := {}
  structures : Registry Structure := {}
  depthLimit : Nat := 32
  order : List Spot := []
  opened : Option Spot := none
  blanks : Nat := 0
  deriving DecidableEq

namespace Catalog

/-- The catalog after a step, and the error if the line of the step is refused. -/
abbrev Taken := Access (Catalog × Option ParseError)

def registry (catalog : Catalog) : (kind : ElementKind) → Registry kind.Content
  | .primitive => catalog.primitives
  | .tag => catalog.tags
  | .struct => catalog.structures

def withRegistry (catalog : Catalog) : (kind : ElementKind) → Registry kind.Content → Catalog
  | .primitive, primitives => { catalog with primitives }
  | .tag, tags => { catalog with tags }
  | .struct, structures => { catalog with structures }

/-- The element in a spot. -/
def element (catalog : Catalog) (spot : Spot) : Access Element :=
  ((catalog.registry spot.1).item spot.2).map spot.1.element

/-- The element of a kind under an identifier. -/
def find? (catalog : Catalog) (key : Element.Key) : Access (Option Element) :=
  ((catalog.registry key.1).find? key.2).map fun found => found.map key.1.element

def length (catalog : Catalog) : Nat :=
  catalog.order.length

/-- The elements stand one blank line apart, in the order of their spots. -/
def text (catalog : Catalog) : Access Text :=
  (catalog.order.mapM fun spot => (catalog.element spot).map Element.text).map
    (Text.joinWith ['\n', '\n'])

def close (catalog : Catalog) : Catalog :=
  { catalog with opened := none, blanks := 0 }

/-- The open spot takes one line. -/
def extend (catalog : Catalog) (line : Text) : Taken :=
  match catalog.opened with
  | none => .ok (catalog, some (.orphanLine line))
  | some (kind, slot) =>
      match (catalog.registry kind).item slot with
      | .error stray => .error stray
      | .ok content =>
          match kind.addLine content line with
          | .error error => .ok (catalog, some (.row error))
          | .ok longer =>
              ((catalog.registry kind).put slot longer).map fun registry =>
                (catalog.withRegistry kind registry, none)

/-- The open spot takes so many blank lines, up to the first that is refused. -/
def extendBlanks (catalog : Catalog) : Nat → Taken
  | 0 => .ok (catalog, none)
  | count + 1 =>
      match catalog.extend [] with
      | .error stray => .error stray
      | .ok (refused, some error) => .ok (refused, some error)
      | .ok (extended, none) => extended.extendBlanks count

/-- The blank lines that were waiting go before a line with content. -/
def addContinuation (catalog : Catalog) (line : Text) : Taken :=
  match { catalog with blanks := 0 }.extendBlanks catalog.blanks with
  | .error stray => .error stray
  | .ok (refused, some error) => .ok (refused, some error)
  | .ok (settled, none) => settled.extend line

/-- Only a new spot is added to the order, and either spot is opened. -/
def declare (catalog : Catalog) (kind : ElementKind) (content : kind.Content) : Access Catalog :=
  ((catalog.registry kind).insert (kind.identifier content) content).map
    fun (registry, slot, fresh) =>
      { catalog.withRegistry kind registry with
        order := if fresh then catalog.order ++ [(kind, slot)] else catalog.order
        opened := some (kind, slot) }

def addHeader (catalog : Catalog) (line : Text) : Taken :=
  match (Element.headerKind line).ofHeader line with
  | .error error => .ok ({ catalog with blanks := 0 }, some (.format error))
  | .ok content =>
      (({ catalog with blanks := 0 } : Catalog).declare (Element.headerKind line) content).map
        fun declared => (declared, none)

def addBlank (catalog : Catalog) : Catalog :=
  if catalog.opened.isSome then { catalog with blanks := catalog.blanks + 1 } else catalog

def addLine (catalog : Catalog) (line : Text) : Taken :=
  match Text.withoutLineEnd line with
  | [] => .ok (catalog.addBlank, none)
  | content =>
      if Element.isHeader content then catalog.addHeader content
      else catalog.addContinuation content

def addLines (catalog : Catalog) (number : Nat) : List Text → Taken
  | [] => .ok (catalog, none)
  | line :: rest =>
      match catalog.addLine line with
      | .error stray => .error stray
      | .ok (refused, some error) => .ok (refused, some (.atLine number error))
      | .ok (extended, none) => extended.addLines (number + 1) rest

def addText (catalog : Catalog) (text : Text) : Taken :=
  match catalog.close.addLines 1 text.lines with
  | .error stray => .error stray
  | .ok (refused, some error) => .ok (refused, some error)
  | .ok (extended, none) => .ok (extended.close, none)

end Catalog

/-- A grammar is fed one line or one text at a time. -/
inductive Feed where
  | line (line : Text)
  | text (text : Text)
  deriving DecidableEq

namespace Catalog

def take (catalog : Catalog) : Feed → Taken
  | .line line => catalog.addLine line
  | .text text => catalog.addText text

/-- The catalog after some feeds, of which any may be refused, and the errors of those that are. -/
def takeAll (catalog : Catalog) : List Feed → Access (Catalog × List (Option ParseError))
  | [] => .ok (catalog, [])
  | feed :: rest =>
      match catalog.take feed with
      | .error stray => .error stray
      | .ok (next, error) =>
          (next.takeAll rest).map fun (last, errors) => (last, error :: errors)

end Catalog

namespace Schema

def take (schema : Schema) : Feed → Schema × Option ParseError
  | .line line => schema.addLine line
  | .text text => schema.addText text

def takeAll (schema : Schema) : List Feed → Schema × List (Option ParseError)
  | [] => (schema, [])
  | feed :: rest =>
      let (next, error) := schema.take feed
      let (last, errors) := next.takeAll rest
      (last, error :: errors)

end Schema

end GedcomGrammar
