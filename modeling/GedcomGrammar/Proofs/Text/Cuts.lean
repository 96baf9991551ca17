/-
This file proves what the ways of cutting text apart leave of it.
-/

import GedcomGrammar.Text
import Mathlib.Data.List.DropRight
import Mathlib.Tactic

namespace GedcomGrammar.Text

@[simp] theorem dropLead?_eq_some_iff {lead text rest : Text} :
    dropLead? lead text = some rest ↔ text = lead ++ rest := by
  rw [dropLead?, List.isPrefixOf?_eq_some_iff_append_eq, eq_comm]

@[simp] theorem dropTail?_eq_some_iff {tail text front : Text} :
    dropTail? tail text = some front ↔ text = front ++ tail := by
  simp only [dropTail?, Option.map_eq_some_iff, List.isPrefixOf?_eq_some_iff_append_eq]
  constructor
  · rintro ⟨reversed, joined, rfl⟩
    rw [← List.reverse_reverse text, ← joined, List.reverse_append, List.reverse_reverse]
  · rintro rfl
    exact ⟨front.reverse, by simp, by simp⟩

theorem isSome_dropTail?_iff {tail text : Text} :
    (dropTail? tail text).isSome ↔ tail <:+ text := by
  simp only [Option.isSome_iff_exists, dropTail?_eq_some_iff]
  exact ⟨fun ⟨front, joined⟩ => ⟨front, joined.symm⟩, fun ⟨front, joined⟩ => ⟨front, joined.symm⟩⟩

theorem dropTail?_singleton_of_ne {front : Text} {last char : Char} (different : last ≠ char) :
    dropTail? [char] (front ++ [last]) = none := by
  simp [dropTail?, List.isPrefixOf?, different.symm]

theorem isPrefixOf?_eq_none_iff {lead text : Text} :
    lead.isPrefixOf? text = none ↔ ¬lead <+: text := by
  simp only [Option.eq_none_iff_forall_ne_some, ne_eq, List.isPrefixOf?_eq_some_iff_append_eq]
  constructor
  · intro apart ⟨tail, joined⟩
    exact apart tail joined
  · intro apart tail joined
    exact apart ⟨tail, joined⟩

/-- The separator stands between the two parts. -/
theorem eq_of_cut? {separator text before after : Text}
    (found : cut? separator text = some (before, after)) :
    text = before ++ separator ++ after := by
  induction text generalizing before after with
  | nil => simp [cut?] at found
  | cons head rest inductionHypothesis =>
      rw [cut?] at found
      split at found
      · rename_i tail matched
        rw [List.isPrefixOf?_eq_some_iff_append_eq] at matched
        simp only [Option.some.injEq, Prod.mk.injEq] at found
        rw [← found.1, ← found.2, ← matched, List.nil_append]
      · obtain ⟨⟨front, back⟩, later, same⟩ := Option.map_eq_some_iff.mp found
        simp only [Prod.mk.injEq] at same
        rw [← same.1, ← same.2, inductionHypothesis later]
        simp only [List.cons_append]

/-- A text is cut wherever the separator occurs in it. -/
theorem cut?_eq_none_iff {separator text : Text} (nonempty : separator ≠ []) :
    cut? separator text = none ↔ ¬separator <:+: text := by
  induction text with
  | nil => simp [cut?, nonempty]
  | cons head rest inductionHypothesis =>
      rw [cut?, List.infix_cons_iff]
      split
      · rename_i tail matched
        rw [List.isPrefixOf?_eq_some_iff_append_eq] at matched
        have leads : separator <+: head :: rest := ⟨tail, matched⟩
        simp [leads]
      · rename_i unmatched
        rw [isPrefixOf?_eq_none_iff] at unmatched
        simp [unmatched, inductionHypothesis]

theorem isSome_cut?_iff {separator text : Text} (nonempty : separator ≠ []) :
    (cut? separator text).isSome ↔ separator <:+: text := by
  rw [← not_iff_not, ← cut?_eq_none_iff nonempty, Bool.not_eq_true, Option.isSome_eq_false_iff,
    Option.isNone_iff_eq_none]

/-- The text before a cut holds no separator, not even one that its own separator completes. -/
theorem not_infix_of_cut? {separator text before after : Text}
    (found : cut? separator text = some (before, after)) (nonempty : separator ≠ []) :
    ¬separator <:+: before ++ separator.dropLast := by
  induction text generalizing before after with
  | nil => simp [cut?] at found
  | cons head rest inductionHypothesis =>
      rw [cut?] at found
      split at found
      · simp only [Option.some.injEq, Prod.mk.injEq] at found
        rw [← found.1, List.nil_append]
        intro contained
        have bound := contained.length_le
        have positive := List.length_pos_iff.mpr nonempty
        rw [List.length_dropLast] at bound
        omega
      · rename_i unmatched
        rw [isPrefixOf?_eq_none_iff] at unmatched
        obtain ⟨⟨front, back⟩, later, same⟩ := Option.map_eq_some_iff.mp found
        simp only [Prod.mk.injEq] at same
        rw [← same.1, List.cons_append, List.infix_cons_iff]
        rintro (lead | contained)
        · apply unmatched
          rw [eq_of_cut? later, List.append_assoc]
          apply lead.trans
          apply List.cons_prefix_cons.mpr ⟨rfl, (List.prefix_append_right_inj front).mpr _⟩
          exact (List.dropLast_prefix separator).trans (List.prefix_append separator back)
        · exact inductionHypothesis later contained

/-- A text is cut at a separator that nothing before it completes earlier. -/
theorem cut?_append {separator before : Text} (after : Text) (nonempty : separator ≠ [])
    (first : ¬separator <:+: before ++ separator.dropLast) :
    cut? separator (before ++ separator ++ after) = some (before, after) := by
  induction before with
  | nil =>
      obtain ⟨head, rest, rfl⟩ := List.exists_cons_of_ne_nil nonempty
      have matched : (head :: rest).isPrefixOf? (head :: (rest ++ after)) = some after :=
        List.isPrefixOf?_eq_some_iff_append_eq.mpr rfl
      simp only [List.nil_append, List.cons_append, cut?, matched]
  | cons head rest inductionHypothesis =>
      have later : ¬separator <:+: rest ++ separator.dropLast := fun contained =>
        first (List.infix_cons contained)
      have unmatched : separator.isPrefixOf? (head :: (rest ++ separator ++ after)) = none := by
        rw [isPrefixOf?_eq_none_iff]
        intro lead
        apply first
        have leads : separator <+: head :: (rest ++ separator.dropLast) := by
          apply List.prefix_of_prefix_length_le lead
          · rw [List.append_assoc]
            refine List.cons_prefix_cons.mpr ⟨rfl, List.prefix_append_right_inj rest |>.mpr ?_⟩
            exact (List.dropLast_prefix separator).trans (List.prefix_append separator after)
          · simp only [List.length_cons, List.length_append, List.length_dropLast]
            omega
        exact leads.isInfix
      rw [List.cons_append, List.cons_append, cut?, unmatched]
      simp only [inductionHypothesis later, Option.map_some]

/-- Where two characters differ, a text is cut at the first, if the second is not before it. -/
theorem cut?_append_of_notMem {first second : Char} {separator before : Text} (after : Text)
    (different : first ≠ second) (absent : second ∉ before) :
    cut? (first :: second :: separator) (before ++ first :: second :: separator ++ after) =
      some (before, after) := by
  induction before with
  | nil =>
      have matched : (first :: second :: separator).isPrefixOf?
          (first :: second :: (separator ++ after)) = some after :=
        List.isPrefixOf?_eq_some_iff_append_eq.mpr rfl
      simp only [List.nil_append, List.cons_append, cut?, matched]
  | cons head rest inductionHypothesis =>
      have later := inductionHypothesis fun member => absent (List.mem_cons_of_mem head member)
      have unmatched : (first :: second :: separator).isPrefixOf?
          (head :: (rest ++ first :: second :: separator ++ after)) = none := by
        rw [isPrefixOf?_eq_none_iff]
        intro lead
        have next := (List.cons_prefix_cons.mp lead).2
        cases rest with
        | nil => exact different (List.cons_prefix_cons.mp next).1.symm
        | cons char others =>
            have same := (List.cons_prefix_cons.mp next).1
            exact absent (by simp [same])
      rw [List.cons_append, List.cons_append, cut?, unmatched]
      simp only [later, Option.map_some]

/-- A text is cut at the first occurrence of a character. -/
theorem cut?_singleton_append {char : Char} {before : Text} (after : Text)
    (absent : char ∉ before) :
    cut? [char] (before ++ char :: after) = some (before, after) := by
  have whole := @cut?_append [char] before after (by simp)
    (by simpa [List.singleton_infix_iff] using absent)
  simpa using whole

/-- A separator whose characters exclude a character does not occur across it. -/
theorem infix_append_cons_iff {separator left right : Text} {char : Char}
    (nonempty : separator ≠ []) (absent : char ∉ separator) :
    separator <:+: left ++ char :: right ↔ separator <:+: left ∨ separator <:+: right := by
  constructor
  · intro contained
    rcases List.infix_append_iff.mp contained with inLeft | inRight | ⟨front, back, rfl, _, lead⟩
    · exact .inl inLeft
    · rcases List.infix_cons_iff.mp inRight with lead | inRight
      · rcases List.prefix_cons_iff.mp lead with rfl | ⟨rest, rfl, _⟩
        · exact absurd rfl nonempty
        · exact absurd (List.mem_cons_self) absent
      · exact .inr inRight
    · rcases List.prefix_cons_iff.mp lead with rfl | ⟨rest, rfl, _⟩
      · left
        rw [List.append_nil] at contained ⊢
        rename_i suffix
        exact suffix.isInfix
      · exact absurd (by simp) absent
  · rintro (inLeft | inRight)
    · exact List.infix_append_of_infix_left inLeft
    · exact List.infix_append_of_infix_right (List.infix_cons inRight)

end GedcomGrammar.Text
