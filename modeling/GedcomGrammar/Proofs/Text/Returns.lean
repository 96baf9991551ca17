/-
This file proves that carriage returns before line ends leave the lines as they are.
-/

import GedcomGrammar.Proofs.Text.Lines
import GedcomGrammar.Spacing

namespace GedcomGrammar.Text

theorem trimEnd_cons_congr {removed : Char → Bool} {text other : Text} (char : Char)
    (same : trimEnd removed text = trimEnd removed other) :
    trimEnd removed (char :: text) = trimEnd removed (char :: other) := by
  have reversed : text.reverse.dropWhile removed = other.reverse.dropWhile removed :=
    List.reverse_injective same
  rw [trimEnd, trimEnd, List.reverse_cons, List.reverse_cons, List.dropWhile_append,
    List.dropWhile_append, reversed]

theorem withoutLineEnd_replicate (count : Nat) :
    withoutLineEnd (List.replicate count '\r') = [] := by
  rw [withoutLineEnd, trimEnd, List.reverse_replicate, List.reverse_eq_nil_iff,
    List.dropWhile_eq_nil_iff]
  intro char member
  rw [List.eq_of_mem_replicate member]
  rfl

theorem notMem_replicate (count : Nat) : '\n' ∉ List.replicate count '\r' := by
  intro member
  exact absurd (List.eq_of_mem_replicate member) (by decide)

/-- Without their ends the lines of both texts are the same. -/
theorem Returns.map_withoutLineEnd {text other : Text} (returns : Returns text other) :
    (other.splitOn '\n').map withoutLineEnd = (text.splitOn '\n').map withoutLineEnd := by
  induction returns with
  | stop count =>
      rw [List.splitOn_eq_singleton (notMem_replicate count), List.map_singleton,
        withoutLineEnd_replicate]
      rfl
  | @feed count text other later inductionHypothesis =>
      have before : ('\n' :: text).splitOn '\n' = [] :: text.splitOn '\n' :=
        List.splitOn_append_cons_self_of_not_mem List.not_mem_nil text
      rw [List.splitOn_append_cons_self_of_not_mem (notMem_replicate count), before,
        List.map_cons, List.map_cons, withoutLineEnd_replicate, inductionHypothesis]
      rfl
  | @char char text other later inductionHypothesis =>
      obtain ⟨first, rest, split⟩ := List.exists_cons_of_ne_nil (text.splitOn_ne_nil '\n')
      obtain ⟨head, tail, splitOther⟩ := List.exists_cons_of_ne_nil (other.splitOn_ne_nil '\n')
      rw [split, splitOther, List.map_cons, List.map_cons, List.cons.injEq] at inductionHypothesis
      rw [List.splitOn_cons_eq_if_modifyHead, List.splitOn_cons_eq_if_modifyHead, split, splitOther]
      split
      · simp only [List.map_cons, inductionHypothesis]
      · simp only [List.modifyHead_cons, List.map_cons, inductionHypothesis.2]
        exact congrArg (· :: _) (trimEnd_cons_congr char inductionHypothesis.1)

theorem returns_refl (text : Text) : Returns text text := by
  induction text with
  | nil => exact .stop 0
  | cons first rest inductionHypothesis => exact .char first inductionHypothesis

/-- A carriage return before every line feed is one way to add carriage returns. -/
theorem returns_withReturns (text : Text) : Returns text text.withReturns := by
  induction text with
  | nil => exact .stop 0
  | cons first rest inductionHypothesis =>
      rw [withReturns, List.flatMap_cons]
      split
      · rename_i feed
        subst feed
        exact .feed 1 inductionHypothesis
      · exact .char first inductionHypothesis

theorem splitOn_widened (gaps : List Nat) (text : Text) :
    (widened gaps text).splitOn '\n' = widen gaps (text.splitOn '\n') := by
  have absent (gaps : List Nat) {lines : List Text} (clean : ∀ line ∈ lines, '\n' ∉ line) :
      ∀ line ∈ widen gaps lines, '\n' ∉ line := by
    induction lines generalizing gaps with
    | nil =>
        intro line member
        rw [List.eq_of_mem_replicate member]
        exact List.not_mem_nil
    | cons first rest inductionHypothesis =>
        obtain ⟨cleanFirst, cleanRest⟩ := List.forall_mem_cons.mp clean
        intro line member
        rcases List.mem_append.mp member with blank | later
        · rw [List.eq_of_mem_replicate blank]
          exact List.not_mem_nil
        · rcases List.mem_cons.mp later with rfl | later
          · exact cleanFirst
          · exact inductionHypothesis gaps.tail cleanRest line later
  have nonempty : widen gaps (text.splitOn '\n') ≠ [] := by
    obtain ⟨first, rest, split⟩ := List.exists_cons_of_ne_nil (text.splitOn_ne_nil '\n')
    rw [split, widen]
    simp
  exact splitOn_joinWith_of_notMem nonempty
    (absent gaps fun line member => notMem_of_mem_splitOn member)

end GedcomGrammar.Text
