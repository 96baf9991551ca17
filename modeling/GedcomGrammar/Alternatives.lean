/-
This file defines the alternatives of a primitive, which one line lists as `[a|b|c]`.
-/

import GedcomGrammar.Component.Cursor

namespace GedcomGrammar

/-- Each alternative is held as its definition, in the order of the line, and there is one. -/
@[ext]
structure Alternatives where
  definitions : List Text
  nonempty : definitions ≠ []
  deriving DecidableEq

namespace Alternatives

/-- The definition that a primitive without a line of alternatives has. -/
def defaultDefinition : Text := "<TEXT>".toList

/-- A primitive without a line of alternatives takes any text. -/
def default : Alternatives := ⟨[defaultDefinition], List.cons_ne_nil _ _⟩

/-- Alternatives are separated by bars. -/
def ofText (body : Text) : Alternatives :=
  ⟨body.splitOn '|', List.splitOn_ne_nil _ _⟩

def text (alternatives : Alternatives) : Text :=
  Text.joinWith ['|'] alternatives.definitions

def isDefault (alternatives : Alternatives) : Bool :=
  alternatives.text == defaultDefinition

/-- The kinds of component that occur in a definition. -/
def definitionKinds (definition : Text) : Except Component.Unmatched Component.KindSet :=
  (Component.ofDefinition definition).map Component.kinds

/-- The kinds of component that occur in any alternative, or the first fault among them. -/
def kinds (alternatives : Alternatives) : Except Component.Unmatched Component.KindSet :=
  alternatives.definitions.foldlM
    (fun found definition => (definitionKinds definition).map found.union) {}

end Alternatives

end GedcomGrammar
