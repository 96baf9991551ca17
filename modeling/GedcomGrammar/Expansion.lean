/-
This file expands the references of a primitive into a pattern for its values.
-/

import GedcomGrammar.Regex.Compiler
import GedcomGrammar.Schema

namespace GedcomGrammar

inductive PatternError where
  | unmatched (error : Component.Unmatched)
  | unknownPrimitive (name : Text)
  | tooDeep (limit : Nat)
  | refused (refusal : Regex.Refusal)
  deriving DecidableEq

def PatternError.message : PatternError → Text
  | .unmatched error => error.message
  | .unknownPrimitive name => "Unknown primitive: ".toList ++ name
  | .tooDeep limit =>
      "Primitive references nest deeper than ".toList ++ Text.decimal limit ++
        " levels".toList
  | .refused refusal => "Generated pattern does not compile: ".toList ++ refusal.reason

/-- A cap lowers the maximum size and never raises it. -/
def Primitive.boundUnder (primitive : Primitive) (cap : Option Nat) : Nat :=
  match cap with
  | some cap => min cap primitive.sizeMax
  | none => primitive.sizeMax

namespace Schema

/-- A declared primitive goes before a leaf of the same name. -/
def referencePattern (schema : Schema) (expand : Primitive → Except PatternError Pattern)
    (bound : Nat) (name : Text) : Except PatternError Pattern :=
  match schema.primitive? name with
  | some primitive => expand primitive
  | none =>
      match Leaf.ofLabel? name with
      | some leaf => .ok (.leaf leaf bound)
      | none => .error (.unknownPrimitive name)

/-- Every component but a primitive stands for its own value. -/
def componentPattern (schema : Schema) (expand : Primitive → Except PatternError Pattern)
    (bound : Nat) (component : Component) : Except PatternError Pattern :=
  match component.kind with
  | .primitive => schema.referencePattern expand bound component.value
  | _ => .ok (.literal component.value)

/-- The pattern of one alternative, in which `expand` gives the patterns of its references. -/
def definitionPattern (schema : Schema) (expand : Primitive → Except PatternError Pattern)
    (bound : Nat) (definition : Text) : Except PatternError Pattern :=
  match Component.ofDefinition definition with
  | .error error => .error (.unmatched error)
  | .ok components =>
      (components.mapM (schema.componentPattern expand bound)).map Pattern.concat

/-- The pattern of a primitive, with room for so many levels of primitives, its own included. -/
def primitivePattern (schema : Schema) :
    Nat → Option Nat → Primitive → Except PatternError Pattern
  | 0, _, _ => .error (.tooDeep schema.depthLimit)
  | levels + 1, cap, primitive =>
      let bound := primitive.boundUnder cap
      match Leaf.ofLabel? primitive.label with
      | some leaf => .ok (.leaf leaf bound)
      | none =>
          (primitive.alternatives.definitions.mapM
            (schema.definitionPattern (schema.primitivePattern levels (some bound)) bound)).map
              fun alternatives => .group (.anyOf alternatives)

/-- References may nest as deep as the limit, below the primitive that starts them. -/
def levels (schema : Schema) : Nat :=
  schema.depthLimit + 1

/-- The pattern of a primitive, with every size in it at most the cap. -/
def pattern (schema : Schema) (primitive : Primitive) (cap : Option Nat) :
    Except PatternError Pattern :=
  schema.primitivePattern schema.levels cap primitive

/-- The pattern of one alternative, whose references start new chains. -/
def alternativePattern (schema : Schema) (bound : Nat) (definition : Text) :
    Except PatternError Pattern :=
  schema.definitionPattern (schema.primitivePattern schema.levels (some bound)) bound definition

end Schema

end GedcomGrammar
