/-
This file proves how deep references may nest when a value is validated.
-/

import GedcomGrammar.Proofs.Expansion.Grounded
import GedcomGrammar.Proofs.Validation.Alternatives

namespace GedcomGrammar.Schema

variable {schema : Schema} {compiler : Regex.Compiler} {bound limit : Nat}
  {value definition : Text} {primitive : Primitive}

/-- A reference that nests too deep for some limit does so for every smaller one. -/
theorem pattern_eq_tooDeep_of_le {cap : Option Nat} (larger : schema.depthLimit ≤ limit)
    (failed : (schema.withDepthLimit limit).pattern primitive cap = .error (.tooDeep limit)) :
    schema.pattern primitive cap = .error (.tooDeep schema.depthLimit) := by
  have deeper := primitivePattern_withDepthLimit_eq_tooDeep_iff.mp failed
  rcases deepens_primitivePattern (Nat.succ_le_succ larger) cap primitive with same | shallower
  · exact same.trans deeper
  · exact shallower

/--
Validation starts at the references, and the pattern at the primitive that has them.
So what nests too deep for validation nests too deep for the pattern under the next larger limit.
-/
theorem pattern_succ_eq_tooDeep_iff (composite : Leaf.ofLabel? primitive.label = none) :
    (schema.withDepthLimit (schema.depthLimit + 1)).pattern primitive none =
        .error (.tooDeep (schema.depthLimit + 1)) ↔
      primitive.alternatives.definitions.mapM (schema.alternativePattern primitive.sizeMax) =
        .error (.tooDeep schema.depthLimit) := by
  rw [pattern, primitivePattern_withDepthLimit_eq_tooDeep_iff, levels, primitivePattern, composite]
  exact map_eq_error_iff

/-- An alternative with a spelling has a pattern. -/
theorem exists_alternativePattern_of_spelling {spelling : Text}
    (spelled : Alternatives.spelling? definition = .ok (some spelling)) :
    ∃ pattern, schema.alternativePattern bound definition = .ok pattern := by
  obtain ⟨components, read, plain, -⟩ := Alternatives.spelling?_eq_some_iff.mp spelled
  exact exists_definitionPattern_iff.mpr ⟨components, read, fun component member =>
    exists_componentPattern_iff.mpr fun refers => absurd refers (plain component member)⟩

/-- Without references nothing nests. -/
theorem refers_of_tooDeep
    (failed : schema.alternativePattern bound definition = .error (.tooDeep limit)) :
    Alternatives.spelling? definition = .ok none := by
  cases spelled : Alternatives.spelling? definition with
  | error fault =>
      obtain ⟨cause, -, unmatched⟩ := Alternatives.spelling?_eq_error_iff.mp spelled
      have same := failed.symm.trans (alternativePattern_of_unread spelled)
      simp [unmatched] at same
  | ok spelling =>
      cases spelling with
      | none => rfl
      | some spelling =>
          obtain ⟨pattern, made⟩ := @exists_alternativePattern_of_spelling schema bound _ _ spelled
          exact absurd (failed.symm.trans made) (by simp)

/-- The references of an alternative are too deep to try it exactly when its pattern is too deep. -/
theorem alternativeAccepts_eq_tooDeep_iff :
    schema.alternativeAccepts compiler bound definition value = .error (.tooDeep limit) ↔
      schema.alternativePattern bound definition = .error (.tooDeep limit) := by
  unfold alternativeAccepts
  cases spelled : Alternatives.spelling? definition with
  | error fault => simp only [alternativePattern_of_unread spelled, Except.error.injEq]
  | ok spelling =>
      cases spelling with
      | some spelling =>
          obtain ⟨pattern, made⟩ := @exists_alternativePattern_of_spelling schema bound _ _ spelled
          simp [made]
      | none =>
          simp only [map_eq_error_iff, matcher]
          cases schema.alternativePattern bound definition with
          | error fault => rfl
          | ok pattern => cases refused : compiler.refusal? pattern.anchoredText <;> simp [refused]

theorem alternativeAccepts_eq_false_iff_of_plain
    (plain : Alternatives.spelling? definition ≠ .ok none) :
    schema.alternativeAccepts compiler bound definition value = .ok false ↔
      Alternatives.spelling? definition ≠ .ok (some value) ∧
        ∃ pattern, schema.alternativePattern bound definition = .ok pattern := by
  cases spelled : Alternatives.spelling? definition with
  | error fault =>
      have unread := @alternativePattern_of_unread schema bound _ _ spelled
      simp [alternativeAccepts, spelled, unread]
  | ok spelling =>
      cases spelling with
      | none => exact absurd spelled plain
      | some spelling =>
          have made := @exists_alternativePattern_of_spelling schema bound _ _ spelled
          simp [alternativeAccepts, spelled, made]

section Plain

variable {definitions : List Text}

theorem mapM_ne_tooDeep_of_plain
    (plain : ∀ other ∈ definitions, Alternatives.spelling? other ≠ .ok none) :
    definitions.mapM (schema.alternativePattern bound) ≠ .error (.tooDeep limit) := by
  intro failed
  obtain ⟨other, member, failedOther⟩ := exists_of_mapM_eq_error failed
  exact plain other member (refers_of_tooDeep failedOther)

theorem firstAccepting_ne_tooDeep_of_plain
    (plain : ∀ other ∈ definitions, Alternatives.spelling? other ≠ .ok none) :
    schema.firstAccepting compiler bound value definitions ≠ .error (.tooDeep limit) := by
  intro failed
  obtain ⟨other, member, failedOther⟩ := exists_of_firstAccepting_eq_error failed
  exact plain other member (refers_of_tooDeep (alternativeAccepts_eq_tooDeep_iff.mp failedOther))

end Plain

/--
Where only one alternative has references, it is reached unless one before it spells the value.
The induction is on the alternatives before it, none of which can nest.
-/
theorem firstAccepting_eq_tooDeep_iff {earlier later : List Text}
    (plain : ∀ other ∈ earlier ++ later, Alternatives.spelling? other ≠ .ok none) :
    schema.firstAccepting compiler bound value (earlier ++ definition :: later) =
        .error (.tooDeep limit) ↔
      (∀ other ∈ earlier, Alternatives.spelling? other ≠ .ok (some value)) ∧
        (earlier ++ definition :: later).mapM (schema.alternativePattern bound) =
          .error (.tooDeep limit) := by
  induction earlier with
  | nil =>
      have patterns : later.mapM (schema.alternativePattern bound) ≠ .error (.tooDeep limit) :=
        mapM_ne_tooDeep_of_plain plain
      have answers : schema.firstAccepting compiler bound value later ≠ .error (.tooDeep limit) :=
        firstAccepting_ne_tooDeep_of_plain plain
      rw [List.nil_append, firstAccepting_cons_eq_error_iff, mapM_cons_eq_error_iff,
        alternativeAccepts_eq_tooDeep_iff, or_iff_left fun both => answers both.2,
        or_iff_left fun both => patterns both.2,
        and_iff_right fun _ member => absurd member List.not_mem_nil]
  | cons other earlier inductionHypothesis =>
      rw [List.cons_append, List.forall_mem_cons] at plain
      have shallow : schema.alternativePattern bound other ≠ .error (.tooDeep limit) :=
        fun failed => plain.1 (refers_of_tooDeep failed)
      rw [List.cons_append, firstAccepting_cons_eq_error_iff, mapM_cons_eq_error_iff,
        alternativeAccepts_eq_tooDeep_iff, alternativeAccepts_eq_false_iff_of_plain plain.1,
        inductionHypothesis plain.2, or_iff_right shallow, or_iff_right shallow,
        List.forall_mem_cons]
      exact and_and_and_comm

/--
References that nest too deep for validation also do for the pattern, but not the other way round.
The pattern under the next larger limit decides, unless an alternative before spells the value.
-/
theorem validate_eq_tooDeep_iff {earlier later : List Text}
    (composite : Leaf.ofLabel? primitive.label = none)
    (listed : primitive.alternatives.definitions = earlier ++ definition :: later)
    (plain : ∀ other ∈ earlier ++ later, Alternatives.spelling? other ≠ .ok none)
    (admits : primitive.Admits value) :
    (schema.validate compiler primitive value = .error (.pattern (.tooDeep schema.depthLimit)) ↔
      (∀ other ∈ earlier, Alternatives.spelling? other ≠ .ok (some value)) ∧
        (schema.withDepthLimit (schema.depthLimit + 1)).pattern primitive none =
          .error (.tooDeep (schema.depthLimit + 1))) ∧
      (schema.validate compiler primitive value = .error (.pattern (.tooDeep schema.depthLimit)) →
        schema.pattern primitive none = .error (.tooDeep schema.depthLimit)) := by
  have decided :
      schema.validate compiler primitive value = .error (.pattern (.tooDeep schema.depthLimit)) ↔
      (∀ other ∈ earlier, Alternatives.spelling? other ≠ .ok (some value)) ∧
        (schema.withDepthLimit (schema.depthLimit + 1)).pattern primitive none =
          .error (.tooDeep (schema.depthLimit + 1)) := by
    rw [validate, Primitive.settled?_of_admits admits, if_neg (ne_null_of_composite composite),
      pattern_succ_eq_tooDeep_iff composite, listed]
    exact Primitive.verdict_eq_pattern_iff.trans (firstAccepting_eq_tooDeep_iff plain)
  refine ⟨decided, fun failed => ?_⟩
  exact pattern_eq_tooDeep_of_le (Nat.le_succ schema.depthLimit) (decided.mp failed).2

def nested : Schema where
  elements := [.primitive (referring "A" "<B>"), .primitive (referring "B" "<C>"),
    .primitive (referring "C" "<NUMBER>")]
  depthLimit := 1

/-- Where no reference may nest, the pattern fails at the first one and validation at the second. -/
theorem validate_nested_tooDeep :
    Leaf.ofLabel? (referring "A" "<B>").label = none ∧
      (referring "A" "<B>").alternatives.definitions = [] ++ "<B>".toList :: [] ∧
      (∀ other ∈ ([] ++ [] : List Text), Alternatives.spelling? other ≠ .ok none) ∧
      (referring "A" "<B>").Admits "7".toList ∧
      (nested.withDepthLimit 0).validate .unlimited (referring "A" "<B>") "7".toList =
        .error (.pattern (.tooDeep 0)) ∧
      (nested.withDepthLimit 0).pattern (referring "A" "<B>") none = .error (.tooDeep 0) := by
  have listed :
      (referring "A" "<B>").alternatives.definitions = [] ++ "<B>".toList :: [] := by decide
  have plain : ∀ other ∈ ([] ++ [] : List Text), Alternatives.spelling? other ≠ .ok none := by simp
  have admits : (referring "A" "<B>").Admits "7".toList := by
    unfold Primitive.Admits
    decide
  have printed : nested.pattern (referring "A" "<B>") none = .error (.tooDeep 1) := by
    decide +kernel
  obtain ⟨decided, both⟩ :=
    @validate_eq_tooDeep_iff (nested.withDepthLimit 0) .unlimited _ _ _ [] [] rfl listed plain
      admits
  have failed := decided.mpr ⟨fun _ member => absurd member List.not_mem_nil, printed⟩
  exact ⟨rfl, listed, plain, admits, failed, both failed⟩

/-- References that nest one level deeper than the limit pass validation, and have no pattern. -/
theorem nested_value_validates :
    ({ depthLimit := 1 } : Schema).addText
        "A:= {Size=1:9}\n[<B>]\nB:= {Size=1:9}\n[<C>]\nC:= {Size=1:9}\n[<NUMBER>]".toList =
          (nested, none) ∧
      nested.primitive? "A".toList = some (referring "A" "<B>") ∧
      Leaf.ofLabel? (referring "A" "<B>").label = none ∧
      (referring "A" "<B>").alternatives.definitions = ["<B>".toList] ∧
      Alternatives.spelling? "<B>".toList = .ok none ∧
      (referring "A" "<B>").Admits "7".toList ∧
      nested.validate .unlimited (referring "A" "<B>") "7".toList = .ok (some "<B>".toList) ∧
      nested.pattern (referring "A" "<B>") none = .error (.tooDeep nested.depthLimit) := by
  have admits : (referring "A" "<B>").Admits "7".toList := by
    unfold Primitive.Admits
    decide
  exact ⟨by decide +kernel, by decide +kernel, rfl, by decide, by decide +kernel, admits,
    by decide +kernel, by decide +kernel⟩

end GedcomGrammar.Schema
