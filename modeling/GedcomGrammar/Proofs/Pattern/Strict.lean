/-
This file proves what becomes of a pattern in which leaves without room take no text.
-/

import GedcomGrammar.Proofs.Pattern.Matching
import GedcomGrammar.Proofs.Pattern.Repetitions
import GedcomGrammar.Validation.Strict

namespace GedcomGrammar.Pattern

variable {pattern : Pattern} {value : Text}

/-- What is left of a pattern accepts a text exactly when the pattern does so strictly. -/
theorem exists_pruned_accepts_iff :
    (∃ left, pattern.pruned? = some left ∧ left.Accepts value) ↔ pattern.AcceptsStrictly value := by
  induction pattern generalizing value with
  | literal spelling => simp [pruned?, Accepts, AcceptsStrictly]
  | leaf kind bound =>
      by_cases roomy : kind.hasRoom bound <;> simp [pruned?, Accepts, AcceptsStrictly, roomy]
  | sequence first second inductionFirst inductionSecond =>
      rw [AcceptsStrictly, pruned?]
      simp only [← inductionFirst, ← inductionSecond]
      cases first.pruned? <;> cases second.pruned? <;> simp [Accepts]
  | choice first second inductionFirst inductionSecond =>
      rw [AcceptsStrictly, pruned?]
      simp only [← inductionFirst, ← inductionSecond]
      cases first.pruned? <;> cases second.pruned? <;> simp [Accepts]
  | group body inductionBody =>
      rw [AcceptsStrictly, pruned?, ← inductionBody]
      cases body.pruned? <;> simp [Accepts]

theorem acceptsStrictly_iff :
    pattern.acceptsStrictly value = true ↔ pattern.AcceptsStrictly value := by
  rw [← exists_pruned_accepts_iff, acceptsStrictly, Option.any_eq_true]
  simp only [accepts_iff]

theorem AcceptsStrictly.accepts (strictly : pattern.AcceptsStrictly value) :
    pattern.Accepts value := by
  induction pattern generalizing value with
  | literal spelling => exact strictly
  | leaf kind bound => exact strictly.2
  | sequence first second inductionFirst inductionSecond =>
      obtain ⟨left, right, rfl, strictlyLeft, strictlyRight⟩ := strictly
      exact ⟨left, right, rfl, inductionFirst strictlyLeft, inductionSecond strictlyRight⟩
  | choice first second inductionFirst inductionSecond =>
      exact strictly.imp inductionFirst inductionSecond
  | group body inductionBody => exact inductionBody strictly

/-- Where every leaf has room, nothing is lost. -/
theorem acceptsStrictly_iff_of_hasRoom
    (roomy : ∀ leaf ∈ pattern.leaves, leaf.1.hasRoom leaf.2 = true) :
    pattern.AcceptsStrictly value ↔ pattern.Accepts value := by
  induction pattern generalizing value with
  | literal spelling => exact Iff.rfl
  | leaf kind bound => exact and_iff_right (roomy (kind, bound) (List.mem_singleton_self _))
  | sequence first second inductionFirst inductionSecond =>
      obtain ⟨roomyFirst, roomySecond⟩ := List.forall_mem_append.mp roomy
      simp only [AcceptsStrictly, Accepts, inductionFirst roomyFirst, inductionSecond roomySecond]
  | choice first second inductionFirst inductionSecond =>
      obtain ⟨roomyFirst, roomySecond⟩ := List.forall_mem_append.mp roomy
      simp only [AcceptsStrictly, Accepts, inductionFirst roomyFirst, inductionSecond roomySecond]
  | group body inductionBody => exact inductionBody roomy

/-- A repetition takes a unit at least, so it has no part in an empty text. -/
theorem acceptsStrictly_nil_iff : pattern.AcceptsStrictly [] ↔ pattern.Accepts [] := by
  refine ⟨AcceptsStrictly.accepts, fun accepted => ?_⟩
  induction pattern with
  | literal spelling => exact accepted
  | leaf kind bound =>
      have noUnit {leaf : Leaf} {count : Nat} (least : 1 ≤ count) : ¬leaf.Units count [] := by
        rintro ⟨⟩
        exact absurd least (by decide)
      cases kind with
      | text =>
          obtain ⟨count, least, -, units⟩ := accepted
          exact absurd units (noUnit least)
      | number =>
          obtain ⟨count, least, -, units⟩ := accepted
          exact absurd units (noUnit least)
      | digit => exact ⟨rfl, accepted⟩
      | null => exact ⟨rfl, accepted⟩
  | sequence first second inductionFirst inductionSecond =>
      obtain ⟨left, right, empty, acceptedLeft, acceptedRight⟩ := accepted
      obtain ⟨rfl, rfl⟩ := List.append_eq_nil_iff.mp empty.symm
      exact ⟨[], [], rfl, inductionFirst acceptedLeft, inductionSecond acceptedRight⟩
  | choice first second inductionFirst inductionSecond =>
      exact accepted.imp inductionFirst inductionSecond
  | group body inductionBody => exact inductionBody accepted

end GedcomGrammar.Pattern
