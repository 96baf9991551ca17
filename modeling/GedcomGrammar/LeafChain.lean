/-
This file says along which references the pattern of a primitive comes to its leaves.
-/

import GedcomGrammar.References

namespace GedcomGrammar

/-- References lead to a leaf through declared primitives, one after another. -/
structure LeafChain where
  passed : List Primitive
  leaf : Leaf
  deriving DecidableEq

namespace LeafChain

/-- The least of a cap and of the maximum sizes on the way. -/
def bound (chain : LeafChain) (cap : Option Nat) : Nat :=
  (cap.toList ++ chain.passed.map Primitive.sizeMax).min?.getD 0

/-- The chain that starts one primitive earlier. -/
def behind (primitive : Primitive) (chain : LeafChain) : LeafChain :=
  { chain with passed := primitive :: chain.passed }

end LeafChain

/-- The names that a definition refers to, in its order. -/
def Component.namesIn (definition : Text) : List Text :=
  match ofDefinition definition with
  | .error _ => []
  | .ok components =>
      (components.filter fun component => component.kind = .primitive).map Component.value

/-- The names that the alternatives of a primitive refer to, in their order. -/
def Primitive.references (primitive : Primitive) : List Text :=
  primitive.alternatives.definitions.flatMap Component.namesIn

namespace Schema

/-- A declared primitive goes before a leaf of the same name. -/
def referenceChains (schema : Schema) (follow : Primitive → List LeafChain) (name : Text) :
    List LeafChain :=
  match schema.primitive? name with
  | some target => follow target
  | none => (Leaf.ofLabel? name).toList.map fun leaf => ⟨[], leaf⟩

/-- The chains from a primitive to its leaves, in the order of its alternatives. -/
def leafChains (schema : Schema) : Nat → Primitive → List LeafChain
  | 0, _ => []
  | levels + 1, primitive =>
      match Leaf.ofLabel? primitive.label with
      | some leaf => [⟨[primitive], leaf⟩]
      | none =>
          (primitive.references.flatMap (schema.referenceChains (schema.leafChains levels))).map
            (LeafChain.behind primitive)

/-- A primitive descends to a leaf by its own label, or by a reference and what this leads to. -/
inductive Descends (schema : Schema) : Primitive → LeafChain → Prop where
  | labelled {primitive : Primitive} {leaf : Leaf}
      (named : Leaf.ofLabel? primitive.label = some leaf) :
      Descends schema primitive ⟨[primitive], leaf⟩
  | undeclared {primitive : Primitive} {name : Text} {leaf : Leaf}
      (mentions : primitive.Mentions name) (missing : schema.primitive? name = none)
      (named : Leaf.ofLabel? name = some leaf) : Descends schema primitive ⟨[primitive], leaf⟩
  | declared {primitive next : Primitive} {chain : LeafChain}
      (links : schema.Links primitive next) (later : Descends schema next chain) :
      Descends schema primitive (chain.behind primitive)

end Schema

end GedcomGrammar
