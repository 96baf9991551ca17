/-
This file says which elements the lines of a text declare, block by block.
-/

import GedcomGrammar.Schema

namespace GedcomGrammar

/-- A block starts at a header and runs to the next one. -/
structure Block where
  header : Text
  below : List Text
  deriving DecidableEq

namespace Block

def lines (block : Block) : List Text :=
  block.header :: block.below

/-- Blank lines at the end of a block belong to no element. -/
def content (block : Block) : List Text :=
  (block.below.reverse.dropWhile List.isEmpty).reverse

/-- The element that a block declares when nothing else is read. -/
def element (block : Block) : Except ParseError Element :=
  match Element.ofHeader (Element.headerKind block.header) block.header with
  | .error error => .error (.format error)
  | .ok bare =>
      match block.content.foldlM Element.addLine bare with
      | .error error => .error (.row error)
      | .ok element => .ok element

/-- The lines before the first header, and the blocks behind them. -/
def cut : List Text → List Text × List Block
  | [] => ([], [])
  | line :: rest =>
      let (loose, blocks) := cut rest
      if Element.isHeader line then ([], ⟨line, loose⟩ :: blocks) else (line :: loose, blocks)

/-- The lines of a text are cut without their line ends. -/
def ofText (text : Text) : List Text × List Block :=
  cut (text.lines.map Text.withoutLineEnd)

end Block

end GedcomGrammar
