/-
This file says which values a primitive stands for, without any pattern.
-/

import GedcomGrammar.Expansion
import GedcomGrammar.Pattern.Language

namespace GedcomGrammar.Schema

mutual

/-- A value of a primitive whose leaves have room up to a bound. -/
inductive Denotes (schema : Schema) : Primitive → Nat → Text → Prop where
  | leaf {primitive : Primitive} {leaf : Leaf} {bound : Nat} {value : Text}
      (named : Leaf.ofLabel? primitive.label = some leaf) (accepted : leaf.Accepts bound value) :
      Denotes schema primitive bound value
  | alternative {primitive : Primitive} {definition : Text} {components : List Component}
      {bound : Nat} {value : Text} (composite : Leaf.ofLabel? primitive.label = none)
      (listed : definition ∈ primitive.alternatives.definitions)
      (read : Component.ofDefinition definition = .ok components)
      (spelled : Spells schema components bound value) : Denotes schema primitive bound value

/-- What a component contributes: its own value, or a value of what it refers to. -/
inductive Fills (schema : Schema) : Component → Nat → Text → Prop where
  | own {component : Component} {bound : Nat} (other : component.kind ≠ .primitive) :
      Fills schema component bound component.value
  | declared {component : Component} {primitive : Primitive} {bound : Nat} {value : Text}
      (refers : component.kind = .primitive)
      (found : schema.primitive? component.value = some primitive)
      (denoted : Denotes schema primitive (min bound primitive.sizeMax) value) :
      Fills schema component bound value
  | undeclared {component : Component} {leaf : Leaf} {bound : Nat} {value : Text}
      (refers : component.kind = .primitive)
      (missing : schema.primitive? component.value = none)
      (named : Leaf.ofLabel? component.value = some leaf) (accepted : leaf.Accepts bound value) :
      Fills schema component bound value

/-- The components of a definition contribute one after another. -/
inductive Spells (schema : Schema) : List Component → Nat → Text → Prop where
  | nil {bound : Nat} : Spells schema [] bound []
  | cons {component : Component} {rest : List Component} {bound : Nat} {first later : Text}
      (filled : Fills schema component bound first) (spelled : Spells schema rest bound later) :
      Spells schema (component :: rest) bound (first ++ later)

end

/-- A definition that can be read describes what its components spell. -/
def Describes (schema : Schema) (definition : Text) (bound : Nat) (value : Text) : Prop :=
  ∃ components, Component.ofDefinition definition = .ok components ∧
    schema.Spells components bound value

end GedcomGrammar.Schema
