/-
This file says how primitives refer to one another.
-/

import GedcomGrammar.Leaf
import GedcomGrammar.Schema

namespace GedcomGrammar

/-- A composite primitive mentions every name that its alternatives refer to. -/
def Primitive.Mentions (primitive : Primitive) (name : Text) : Prop :=
  Leaf.ofLabel? primitive.label = none ∧
    ∃ definition ∈ primitive.alternatives.definitions, ∃ components,
      Component.ofDefinition definition = .ok components ∧ ⟨.primitive, name⟩ ∈ components

/-- A primitive names whatever its alternatives refer to, also when its label is that of a leaf. -/
def Primitive.Names (primitive : Primitive) (name : Text) : Prop :=
  ∃ definition ∈ primitive.alternatives.definitions, ∃ components,
    Component.ofDefinition definition = .ok components ∧ ⟨.primitive, name⟩ ∈ components

/-- What a reference to a primitive shows of it. -/
def Primitive.face (primitive : Primitive) : Text × Nat × Alternatives :=
  (primitive.label, primitive.sizeMax, primitive.alternatives)

namespace Schema

/-- A link leads from a primitive to a declared one that it mentions. -/
def Links (schema : Schema) (primitive target : Primitive) : Prop :=
  ∃ name, primitive.Mentions name ∧ schema.primitive? name = some target

/-- A chain has so many links, one after another. -/
inductive Chain (schema : Schema) : Nat → Primitive → Primitive → Prop where
  | start {primitive : Primitive} : Chain schema 0 primitive primitive
  | link {count : Nat} {primitive next target : Primitive} (first : schema.Links primitive next)
      (later : Chain schema count next target) : Chain schema (count + 1) primitive target

/-- A primitive resolves when its alternatives can be read and the names in them are known. -/
structure Resolves (schema : Schema) (primitive : Primitive) : Prop where
  readable : Leaf.ofLabel? primitive.label = none →
    ∀ definition ∈ primitive.alternatives.definitions, ∃ components,
      Component.ofDefinition definition = .ok components
  known : ∀ name, primitive.Mentions name →
    (∃ target, schema.primitive? name = some target) ∨ ∃ leaf, Leaf.ofLabel? name = some leaf

/-- Every chain from a grounded primitive leads to one that resolves, within the depth limit. -/
def Grounded (schema : Schema) (primitive : Primitive) : Prop :=
  ∀ count reached, schema.Chain count primitive reached →
    schema.Resolves reached ∧ count ≤ schema.depthLimit

/--
A primitive reaches the names in its alternatives, and beyond a declared composite primitive the
names that this one mentions. A name may be reached that nothing declares.
-/
inductive Reaches (schema : Schema) (primitive : Primitive) : Text → Prop where
  | named {name : Text} (names : primitive.Names name) : Reaches schema primitive name
  | beyond {name further : Text} {target : Primitive} (reached : Reaches schema primitive name)
      (found : schema.primitive? name = some target) (mentions : target.Mentions further) :
      Reaches schema primitive further

/-- Two schemas declare the same under some names, as far as references show it. -/
def AgreeOn (first second : Schema) (names : Text → Prop) : Prop :=
  ∀ name, names name →
    (first.primitive? name).map Primitive.face = (second.primitive? name).map Primitive.face

end Schema

end GedcomGrammar
