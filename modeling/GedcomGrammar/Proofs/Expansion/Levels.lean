/-
This file proves what the depth limit changes in the pattern of a primitive.
-/

import GedcomGrammar.Expansion
import GedcomGrammar.Proofs.Results

namespace GedcomGrammar

/-- The error as another depth limit words it. -/
def PatternError.under (limit : Nat) : PatternError → PatternError
  | .tooDeep _ => .tooDeep limit
  | error => error

theorem PatternError.under_eq_tooDeep_iff {limit : Nat} {error : PatternError} :
    error.under limit = .tooDeep limit ↔ ∃ other, error = .tooDeep other := by
  cases error <;> simp [under]

namespace Schema

/-- The same elements with another depth limit. -/
def withDepthLimit (schema : Schema) (limit : Nat) : Schema :=
  { schema with depthLimit := limit }

variable {schema : Schema} {bound : Nat}

/-- A second way to expand primitives differs from the first only where that goes too deep. -/
def Deepens (schema : Schema) (expand other : Primitive → Except PatternError Pattern) : Prop :=
  ∀ primitive, expand primitive = other primitive ∨
    expand primitive = .error (.tooDeep schema.depthLimit)

section Deepens

variable {expand other : Primitive → Except PatternError Pattern}

theorem Deepens.component (deepens : schema.Deepens expand other) (bound : Nat)
    (component : Component) :
    schema.componentPattern expand bound component =
        schema.componentPattern other bound component ∨
      schema.componentPattern expand bound component = .error (.tooDeep schema.depthLimit) := by
  unfold componentPattern referencePattern
  split
  · split
    · exact deepens _
    · exact .inl rfl
  · exact .inl rfl

theorem Deepens.definition (deepens : schema.Deepens expand other) (bound : Nat)
    (definition : Text) :
    schema.definitionPattern expand bound definition =
        schema.definitionPattern other bound definition ∨
      schema.definitionPattern expand bound definition = .error (.tooDeep schema.depthLimit) := by
  unfold definitionPattern
  split
  · exact .inl rfl
  · rename_i components read
    rcases mapM_eq_or_eq_error (deepens.component bound) components with same | failed
    · rw [same]
      exact .inl rfl
    · rw [failed]
      exact .inr rfl

end Deepens

/-- More levels change only a pattern that is too deep for fewer. -/
theorem deepens_primitivePattern {levels more : Nat} (within : levels ≤ more) (cap : Option Nat) :
    schema.Deepens (schema.primitivePattern levels cap) (schema.primitivePattern more cap) := by
  induction levels generalizing more cap with
  | zero => exact fun _ => .inr rfl
  | succ levels inductionHypothesis =>
      intro primitive
      obtain _ | more := more
      · exact absurd within (Nat.not_succ_le_zero levels)
      have deepens := inductionHypothesis (Nat.le_of_succ_le_succ within)
        (some (primitive.boundUnder cap))
      rw [primitivePattern, primitivePattern]
      split
      · exact .inl rfl
      · rcases mapM_eq_or_eq_error (deepens.definition (primitive.boundUnder cap))
          primitive.alternatives.definitions with same | failed
        · rw [same]
          exact .inl rfl
        · rw [failed]
          exact .inr rfl

theorem primitivePattern_of_le {levels more : Nat} {cap : Option Nat} {primitive : Primitive}
    {pattern : Pattern} (made : schema.primitivePattern levels cap primitive = .ok pattern)
    (within : levels ≤ more) : schema.primitivePattern more cap primitive = .ok pattern := by
  rcases deepens_primitivePattern within cap primitive with same | failed
  · exact same ▸ made
  · exact absurd (made.symm.trans failed) (by simp)

section Errors

variable (limit : Nat)

theorem componentPattern_withDepthLimit (expand : Primitive → Except PatternError Pattern)
    (component : Component) :
    (schema.withDepthLimit limit).componentPattern
        (fun primitive => (expand primitive).mapError (.under limit)) bound component =
      (schema.componentPattern expand bound component).mapError (.under limit) := by
  have declared (name : Text) :
      (schema.withDepthLimit limit).primitive? name = schema.primitive? name := rfl
  unfold componentPattern referencePattern
  split
  · rw [declared]
    split
    · rfl
    · split <;> rfl
  · rfl

theorem definitionPattern_withDepthLimit (expand : Primitive → Except PatternError Pattern)
    (definition : Text) :
    (schema.withDepthLimit limit).definitionPattern
        (fun primitive => (expand primitive).mapError (.under limit)) bound definition =
      (schema.definitionPattern expand bound definition).mapError (.under limit) := by
  unfold definitionPattern
  split
  · rfl
  · rename_i components read
    rw [funext (componentPattern_withDepthLimit limit expand), mapM_mapError, map_mapError]

/-- With the same levels the depth limit only shows in the error. -/
theorem primitivePattern_withDepthLimit (levels : Nat) (cap : Option Nat) (primitive : Primitive) :
    (schema.withDepthLimit limit).primitivePattern levels cap primitive =
      (schema.primitivePattern levels cap primitive).mapError (.under limit) := by
  induction levels generalizing cap primitive with
  | zero => rfl
  | succ levels inductionHypothesis =>
      rw [primitivePattern, primitivePattern]
      split
      · rfl
      · rw [funext (inductionHypothesis (some (primitive.boundUnder cap))),
          funext (definitionPattern_withDepthLimit limit _), mapM_mapError, map_mapError]

end Errors

/-- A chain of references that is too long reports the limit of its schema. -/
theorem limit_of_primitivePattern {levels limit : Nat} {cap : Option Nat} {primitive : Primitive}
    (failed : schema.primitivePattern levels cap primitive = .error (.tooDeep limit)) :
    limit = schema.depthLimit := by
  have reworded :=
    @primitivePattern_withDepthLimit schema schema.depthLimit levels cap primitive
  rw [failed] at reworded
  have same := failed.symm.trans reworded
  simpa [Except.mapError, PatternError.under] using same

/-- Whether the levels suffice does not depend on the depth limit that is reported. -/
theorem primitivePattern_withDepthLimit_eq_tooDeep_iff {levels limit : Nat} {cap : Option Nat}
    {primitive : Primitive} :
    (schema.withDepthLimit limit).primitivePattern levels cap primitive =
        .error (.tooDeep limit) ↔
      schema.primitivePattern levels cap primitive = .error (.tooDeep schema.depthLimit) := by
  rw [primitivePattern_withDepthLimit]
  cases made : schema.primitivePattern levels cap primitive with
  | ok pattern => simp [Except.mapError]
  | error error =>
      simp only [Except.mapError, Except.error.injEq, PatternError.under_eq_tooDeep_iff]
      constructor
      · rintro ⟨other, rfl⟩
        rw [limit_of_primitivePattern made]
      · rintro rfl
        exact ⟨_, rfl⟩

end Schema

end GedcomGrammar
