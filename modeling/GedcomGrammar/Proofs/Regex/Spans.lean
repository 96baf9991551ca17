/-
This file proves what sequences and alternatives of regular expressions span.
-/

import GedcomGrammar.Regex.Reader
import Mathlib.Tactic

namespace GedcomGrammar.Regex

variable {before middle after : Text}

theorem spans_singleton {item : Regex} :
    (concat [item]).Spans before middle after ↔ item.Spans before middle after := by
  constructor
  · intro joined
    obtain ⟨left, right, rfl, rfl, spans⟩ := joined
    simpa using spans
  · intro spans
    exact ⟨[], middle, rfl, rfl, by simpa using spans⟩

/-- The later items span what the earlier ones leave. -/
theorem spans_concat_append {later earlier : List Regex} :
    (concat (later ++ earlier)).Spans before middle after ↔
      ∃ left right, middle = left ++ right ∧
        (concat earlier).Spans before left (right ++ after) ∧
        (concat later).Spans (before ++ left) right after := by
  induction later generalizing middle after with
  | nil =>
      constructor
      · intro spans
        exact ⟨middle, [], by simp, by simpa using spans, rfl⟩
      · intro joined
        obtain ⟨left, right, rfl, spans, rfl⟩ := joined
        simpa using spans
  | cons last later inductionHypothesis =>
      constructor
      · intro joined
        obtain ⟨front, back, rfl, spansFront, spansLast⟩ := joined
        obtain ⟨left, right, rfl, spansEarlier, spansLater⟩ := inductionHypothesis.mp spansFront
        refine ⟨left, right ++ back, by simp, by simpa using spansEarlier, right, back, rfl,
          spansLater, by simpa using spansLast⟩
      · intro joined
        obtain ⟨left, rest, rfl, spansEarlier, right, back, rfl, spansLater, spansLast⟩ := joined
        refine ⟨left ++ right, back, by simp, ?_, by simpa using spansLast⟩
        exact inductionHypothesis.mpr ⟨left, right, rfl, by simpa using spansEarlier, spansLater⟩

/-- Alternatives span what any of them spans. -/
theorem spans_anyOf {last : Regex} {complete : List Regex} :
    (anyOf last complete).Spans before middle after ↔
      last.Spans before middle after ∨ ∃ regex ∈ complete, regex.Spans before middle after := by
  induction complete generalizing last with
  | nil => simp [anyOf]
  | cons previous earlier inductionHypothesis =>
      rw [anyOf, Spans, inductionHypothesis, List.exists_mem_cons_iff, or_comm]

/-- A regular expression spans the texts of a language, whatever stands around them. -/
def Describes (regex : Regex) (language : Text → Prop) : Prop :=
  ∀ before middle after, regex.Spans before middle after ↔ language middle

/-- Repeated units are cut off one after another. -/
theorem times_iff {unit : Regex} {language : Text → Prop} (describes : unit.Describes language)
    {count : Nat} :
    Times unit.Spans (count + 1) before middle after ↔
      ∃ left right, middle = left ++ right ∧ language left ∧
        Times unit.Spans count (before ++ left) right after := by
  simp only [Times, describes _ _ _]

end GedcomGrammar.Regex
