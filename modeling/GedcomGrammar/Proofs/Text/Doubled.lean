/-
This file proves which texts are those of another text with its at signs doubled.
-/

import GedcomGrammar.Text.Doubled
import Mathlib.Tactic

namespace GedcomGrammar.Text

variable {char : Char} {text plain : Text}

theorem doubled_cons_of_ne (other : char ≠ '@') :
    doubled (char :: plain) = char :: doubled plain := by
  rw [doubled, List.flatMap_cons, if_neg other]
  rfl

theorem doubled_cons_at : doubled ('@' :: plain) = '@' :: '@' :: doubled plain :=
  rfl

theorem doubled_injective : Function.Injective doubled := by
  intro first
  induction first with
  | nil =>
      intro second same
      cases second with
      | nil => rfl
      | cons char rest => by_cases sign : char = '@' <;> simp [doubled, sign] at same
  | cons char rest inductionHypothesis =>
      intro second same
      cases second with
      | nil => by_cases sign : char = '@' <;> simp [doubled, sign] at same
      | cons other later =>
          by_cases sign : char = '@' <;> by_cases signAlso : other = '@'
          · subst sign signAlso
            rw [doubled_cons_at, doubled_cons_at, List.cons_inj_right, List.cons_inj_right] at same
            rw [inductionHypothesis same]
          · subst sign
            rw [doubled_cons_at, doubled_cons_of_ne signAlso] at same
            exact absurd (List.head_eq_of_cons_eq same).symm signAlso
          · subst signAlso
            rw [doubled_cons_at, doubled_cons_of_ne sign] at same
            exact absurd (List.head_eq_of_cons_eq same) sign
          · rw [doubled_cons_of_ne sign, doubled_cons_of_ne signAlso, List.cons.injEq] at same
            rw [same.1, inductionHypothesis same.2]

theorem length_le_length_doubled (plain : Text) : plain.length ≤ plain.doubled.length := by
  induction plain with
  | nil => exact le_rfl
  | cons char rest inductionHypothesis =>
      by_cases sign : char = '@'
      · subst sign
        rw [doubled_cons_at, List.length_cons, List.length_cons, List.length_cons]
        omega
      · rw [doubled_cons_of_ne sign, List.length_cons, List.length_cons]
        omega

theorem doubled_eq_nil_iff : plain.doubled = [] ↔ plain = [] := by
  refine ⟨fun empty => doubled_injective empty, ?_⟩
  rintro rfl
  rfl

section Runs

theorem getLast?_cons_ne_iff {sign : Char} {before : Text} (other : char ≠ sign) :
    (char :: before).getLast? ≠ some sign ↔ before.getLast? ≠ some sign := by
  cases before with
  | nil => simp [other]
  | cons next before => rw [List.getLast?_cons_cons]

theorem hasEvenRuns_nil : HasEvenRuns [] := by
  intro before count after cut _ _
  have none : count = 0 := by simp_all
  exact none ▸ Even.zero

/-- A character that is no at sign is no part of any run. -/
theorem hasEvenRuns_cons_iff_of_ne (other : char ≠ '@') :
    HasEvenRuns (char :: text) ↔ HasEvenRuns text := by
  constructor
  · intro even before count after cut ends starts
    refine even (char :: before) count after ?_ ((getLast?_cons_ne_iff other).mpr ends) starts
    rw [cut]
    rfl
  · intro even before count after cut ends starts
    cases before with
    | cons first before =>
        simp only [List.cons_append, List.cons.injEq] at cut
        obtain ⟨rfl, cut⟩ := cut
        exact even before count after cut ((getLast?_cons_ne_iff other).mp ends) starts
    | nil =>
        cases count with
        | zero => exact Even.zero
        | succ count =>
            rw [List.nil_append, List.replicate_succ, List.cons_append, List.cons.injEq] at cut
            exact absurd cut.1 other

/-- Two at signs more leave each run as even as it was. -/
theorem hasEvenRuns_cons_cons_iff : HasEvenRuns ('@' :: '@' :: text) ↔ HasEvenRuns text := by
  constructor
  · intro even before count after cut ends starts
    cases before with
    | nil =>
        have longer := even [] (count + 2) after (by rw [cut]; rfl) (by simp) starts
        exact (Nat.even_add.mp longer).mpr even_two
    | cons first before =>
        refine even ('@' :: '@' :: first :: before) count after ?_ ?_ starts
        · rw [cut]
          rfl
        · rwa [List.getLast?_cons_cons, List.getLast?_cons_cons]
  · -- A run may start with both of the signs in front, behind them, but not between them.
    intro even before count after cut ends starts
    rcases before with _ | ⟨first, _ | ⟨second, before⟩⟩
    · rcases count with _ | _ | count
      · exact Even.zero
      · simp only [zero_add, List.replicate_one, List.nil_append, List.singleton_append,
          List.cons.injEq, true_and] at cut
        exact absurd (by rw [← cut]; rfl) starts
      · simp only [List.replicate_succ, List.nil_append, List.cons_append, List.cons.injEq,
          true_and] at cut
        exact (even [] count after cut (by simp) starts).add even_two
    · simp only [List.cons_append, List.cons.injEq] at cut
      obtain ⟨rfl, cut⟩ := cut
      exact absurd rfl ends
    · simp only [List.cons_append, List.cons.injEq] at cut
      obtain ⟨rfl, rfl, cut⟩ := cut
      refine even before count after cut (fun last => ends ?_) starts
      cases before with
      | nil => simp at last
      | cons third before => rwa [List.getLast?_cons_cons, List.getLast?_cons_cons]

/-- A single at sign in front is a run of its own. -/
theorem not_hasEvenRuns_cons (alone : text.head? ≠ some '@') : ¬HasEvenRuns ('@' :: text) := by
  intro even
  have odd := even [] 1 text rfl (by simp) alone
  exact absurd odd Nat.not_even_one

end Runs

section Halves

theorem exists_cons_eq_doubled_iff_of_ne (other : char ≠ '@') :
    (∃ plain, char :: text = doubled plain) ↔ ∃ plain, text = doubled plain := by
  constructor
  · rintro ⟨plain, same⟩
    cases plain with
    | nil => simp [doubled] at same
    | cons first rest =>
        by_cases sign : first = '@'
        · subst sign
          exact absurd (List.head_eq_of_cons_eq same) other
        · rw [doubled_cons_of_ne sign] at same
          exact ⟨rest, List.tail_eq_of_cons_eq same⟩
  · rintro ⟨plain, rfl⟩
    exact ⟨char :: plain, (doubled_cons_of_ne other).symm⟩

/-- What starts with an at sign and is doubled goes on with another one. -/
theorem eq_of_cons_eq_doubled (same : '@' :: text = doubled plain) :
    ∃ rest, text = '@' :: doubled rest := by
  cases plain with
  | nil => simp [doubled] at same
  | cons first rest =>
      by_cases sign : first = '@'
      · subst sign
        exact ⟨rest, List.tail_eq_of_cons_eq same⟩
      · rw [doubled_cons_of_ne sign] at same
        exact absurd (List.head_eq_of_cons_eq same).symm sign

theorem exists_cons_cons_eq_doubled_iff :
    (∃ plain, '@' :: '@' :: text = doubled plain) ↔ ∃ plain, text = doubled plain := by
  constructor
  · rintro ⟨plain, same⟩
    obtain ⟨rest, later⟩ := eq_of_cons_eq_doubled same
    exact ⟨rest, List.tail_eq_of_cons_eq later⟩
  · rintro ⟨plain, rfl⟩
    exact ⟨'@' :: plain, rfl⟩

end Halves

/-- Doubling gives exactly the texts whose runs of at signs are even. -/
theorem exists_eq_doubled_iff (text : Text) : (∃ plain, text = doubled plain) ↔ HasEvenRuns text :=
  match text with
  | [] => iff_of_true ⟨[], rfl⟩ hasEvenRuns_nil
  | char :: rest => by
      by_cases sign : char = '@'
      · subst sign
        by_cases pair : rest.head? = some '@'
        · obtain ⟨later, rfl⟩ := List.head?_eq_some_iff.mp pair
          rw [exists_cons_cons_eq_doubled_iff, hasEvenRuns_cons_cons_iff]
          exact exists_eq_doubled_iff later
        · refine iff_of_false (fun ⟨plain, same⟩ => pair ?_) (not_hasEvenRuns_cons pair)
          obtain ⟨later, rfl⟩ := eq_of_cons_eq_doubled same
          rfl
      · rw [exists_cons_eq_doubled_iff_of_ne sign, hasEvenRuns_cons_iff_of_ne sign]
        exact exists_eq_doubled_iff rest
termination_by text.length

theorem freeOfControls_doubled_iff : FreeOfControls (doubled plain) ↔ FreeOfControls plain := by
  have member (char : Char) : char ∈ doubled plain ↔ char ∈ plain := by
    rw [doubled, List.mem_flatMap]
    constructor
    · rintro ⟨source, listed, inside⟩
      by_cases sign : source = '@'
      · simp_all
      · simp_all
    · intro listed
      refine ⟨char, listed, ?_⟩
      split
      · simp_all
      · exact List.mem_singleton_self char
  simp only [FreeOfControls, member]

end GedcomGrammar.Text
