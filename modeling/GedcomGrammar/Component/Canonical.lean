/-
This file says which lists of components definitions have, and where no component begins.
-/

import GedcomGrammar.Component
import Mathlib.Data.List.Chain

namespace GedcomGrammar.Component

/-- The characters that a component of a kind never has in its value. -/
def Kind.excluded : Kind → List Char
  | .primitive => ['>']
  | .term => ['}']
  | .tag => ['%']
  | .literal => ['<', '{', '%']

/-- A component has a value, which neither closes the component nor opens another one. -/
def Proper (component : Component) : Prop :=
  component.value ≠ [] ∧ ∀ char ∈ component.kind.excluded, char ∉ component.value

instance (component : Component) : Decidable component.Proper :=
  inferInstanceAs (Decidable (_ ∧ _))

/-- Two pieces of literal text next to each other would be one piece. -/
def Apart (left right : Component) : Prop :=
  left.kind = .literal → right.kind ≠ .literal

instance (left right : Component) : Decidable (left.Apart right) :=
  inferInstanceAs (Decidable (_ → _))

/-- Proper components, of which no two neighbours are literal. -/
structure Canonical (components : List Component) : Prop where
  proper : ∀ component ∈ components, component.Proper
  apart : components.IsChain Apart

/-- An opening delimiter is not closed, or nothing stands before its closing delimiter. -/
def Blocked (text : Text) : Prop :=
  ∃ opener closer rest, (opener, closer) ∈ [('<', '>'), ('{', '}'), ('%', '%')] ∧
    text = opener :: rest ∧ (closer ∉ rest ∨ rest.head? = some closer)

end GedcomGrammar.Component
