/-
This file proves what the pattern of an alternative depends on.
-/

import GedcomGrammar.Validation
import Mathlib.Tactic

namespace GedcomGrammar.Schema

/-- Schemas that declare the same and nest alike differ only in what takes the next line. -/
structure Alike (left right : Schema) : Prop where
  elements : left.elements = right.elements
  depthLimit : left.depthLimit = right.depthLimit

namespace Alike

variable {left right : Schema}

theorem refl (schema : Schema) : Alike schema schema :=
  ⟨rfl, rfl⟩

theorem symm (alike : Alike left right) : Alike right left :=
  ⟨alike.elements.symm, alike.depthLimit.symm⟩

theorem trans {middle : Schema} (first : Alike left middle) (second : Alike middle right) :
    Alike left right :=
  ⟨first.elements.trans second.elements, first.depthLimit.trans second.depthLimit⟩

theorem addBlank (schema : Schema) : Alike schema schema.addBlank := by
  rw [Schema.addBlank]
  split
  · exact ⟨rfl, rfl⟩
  · exact refl schema

theorem primitive? (alike : Alike left right) (label : Text) :
    left.primitive? label = right.primitive? label := by
  rw [Schema.primitive?, Schema.find?, alike.elements]
  rfl

theorem definitionPattern (alike : Alike left right)
    (expand : Primitive → Except PatternError Pattern) :
    left.definitionPattern expand = right.definitionPattern expand := by
  funext bound definition
  have component (component : Component) : left.componentPattern expand bound component =
      right.componentPattern expand bound component := by
    simp only [componentPattern, referencePattern, alike.primitive?]
  simp only [Schema.definitionPattern, funext component]

theorem primitivePattern (alike : Alike left right) (levels : Nat) :
    left.primitivePattern levels = right.primitivePattern levels := by
  induction levels with
  | zero =>
      funext cap primitive
      rw [Schema.primitivePattern, Schema.primitivePattern, alike.depthLimit]
  | succ levels inductionHypothesis =>
      funext cap primitive
      rw [Schema.primitivePattern, Schema.primitivePattern, inductionHypothesis,
        alike.definitionPattern]

/-- Alike schemas give an alternative the same matcher. -/
theorem matcher (alike : Alike left right) : left.matcher = right.matcher := by
  funext compiler bound definition
  simp only [Schema.matcher, alternativePattern, levels, alike.depthLimit,
    alike.primitivePattern, alike.definitionPattern]

end Alike

/-- Without elements no reference is expanded, so the depth limit plays no part. -/
theorem matcher_of_empty {left right : Schema} (leftEmpty : left.elements = [])
    (rightEmpty : right.elements = []) : left.matcher = right.matcher := by
  have undeclared {schema : Schema} (empty : schema.elements = []) (name : Text) :
      schema.primitive? name = none := by
    rw [primitive?, find?, empty]
    rfl
  funext compiler bound definition
  have component (component : Component) :
      left.componentPattern (left.primitivePattern left.levels (some bound)) bound component =
        right.componentPattern (right.primitivePattern right.levels (some bound)) bound
          component := by
    simp only [componentPattern, referencePattern, undeclared leftEmpty, undeclared rightEmpty]
  simp only [matcher, alternativePattern, definitionPattern, funext component]

end GedcomGrammar.Schema
