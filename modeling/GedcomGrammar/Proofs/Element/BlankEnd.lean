/-
This file proves what becomes of the blank lines at the end of an element.
-/

import GedcomGrammar.Proofs.Element.Described

namespace GedcomGrammar

/-- Blank lines at the end of an element wait for more of its text, which never comes. -/
def withoutBlankEnd (lines : List Text) : List Text :=
  lines.rdropWhile List.isEmpty

theorem withoutBlankEnd_eq_self {lines : List Text} (last : lines.getLast? ≠ some []) :
    withoutBlankEnd lines = lines := by
  rw [withoutBlankEnd, List.rdropWhile_eq_self_iff]
  intro nonempty blank
  rw [List.isEmpty_iff] at blank
  exact last (by rw [List.getLast?_eq_some_getLast nonempty, blank])

theorem withoutBlankEnd_append {front : List Text} (back : List Text)
    (last : front.getLast? ≠ some []) :
    withoutBlankEnd (front ++ back) = front ++ withoutBlankEnd back := by
  induction back using List.reverseRecOn with
  | nil =>
      rw [List.append_nil, withoutBlankEnd_eq_self last]
      exact (List.append_nil front).symm
  | append_singleton back line inductionHypothesis =>
      by_cases blank : line.isEmpty = true
      · rw [← List.append_assoc, withoutBlankEnd, List.rdropWhile_concat_pos _ _ _ blank,
          withoutBlankEnd, List.rdropWhile_concat_pos _ _ _ blank]
        exact inductionHypothesis
      · rw [← List.append_assoc, withoutBlankEnd, List.rdropWhile_concat_neg _ _ _ blank,
          withoutBlankEnd, List.rdropWhile_concat_neg _ _ _ blank, List.append_assoc]

/-- The text without the line feeds at its end. -/
def Text.withoutFeedEnd (text : Text) : Text :=
  text.trimEnd (· == '\n')

theorem Text.withoutFeedEnd_eq_self_iff {text : Text} :
    text.withoutFeedEnd = text ↔ text.getLast? ≠ some '\n' := by
  constructor
  · intro same last
    rw [← same] at last
    exact absurd (getLast?_trimEnd last) (by decide)
  · intro other
    apply trimEnd_eq_self
    intro char last
    rw [last, ne_eq, Option.some.injEq] at other
    exact beq_eq_false_iff_ne.mpr other

/-- Text that does not start with a line feed does not consist of line feeds. -/
theorem Text.withoutFeedEnd_ne_nil {text : Text} (started : text.head? ≠ some '\n')
    (nonempty : text ≠ []) : text.withoutFeedEnd ≠ [] := by
  intro empty
  obtain ⟨first, rest, rfl⟩ := List.exists_cons_of_ne_nil nonempty
  have feeds := List.rdropWhile_eq_nil_iff.mp empty first List.mem_cons_self
  exact started (by rw [beq_iff_eq] at feeds; rw [feeds]; rfl)

theorem Text.head?_withoutFeedEnd {text : Text} (started : text.head? ≠ some '\n') :
    text.withoutFeedEnd.head? ≠ some '\n' := by
  obtain ⟨rest, joined⟩ : text.withoutFeedEnd <+: text := prefix_trimEnd text
  intro head
  apply started
  rw [← joined, List.head?_append, head]
  rfl

/-- The lines of a description make it again. -/
theorem foldl_descriptionLines {description : Text} (started : description.head? ≠ some '\n') :
    (descriptionLines description).foldl Text.addLine [] = description := by
  unfold descriptionLines
  split
  · rename_i empty
    rw [empty]
    rfl
  · exact Text.foldl_addLine_splitOn started

namespace Described

variable {usual : Text → Prop} {description : Text}

theorem withoutBlankEnd_lines (described : Described usual description) :
    withoutBlankEnd (descriptionLines description) =
      descriptionLines description.withoutFeedEnd := by
  by_cases empty : description = []
  · rw [empty]
    rfl
  · have kept := Text.withoutFeedEnd_ne_nil described.started empty
    rw [descriptionLines, if_neg empty, descriptionLines, if_neg kept]
    exact Text.rdropWhile_splitOn kept

/-- Its lines without the blank end make the description without the line feeds at its end. -/
theorem foldl_withoutBlankEnd (described : Described usual description) :
    (withoutBlankEnd (descriptionLines description)).foldl Text.addLine [] =
      description.withoutFeedEnd := by
  rw [described.withoutBlankEnd_lines]
  exact foldl_descriptionLines (Text.head?_withoutFeedEnd described.started)

theorem usual_of_mem (described : Described usual description) {line : Text}
    (member : line ∈ withoutBlankEnd (descriptionLines description)) : usual line :=
  (described.continues ((List.rdropWhile_prefix _ _).subset member)).2

end Described

namespace Text

/-- Blank lines lengthen only a description that has begun. -/
theorem foldl_addLine_blanks (description : Text) (count : Nat) :
    (List.replicate count []).foldl addLine description =
      if description = [] then [] else description ++ List.replicate count '\n' := by
  induction count generalizing description with
  | zero => by_cases empty : description = [] <;> simp [empty]
  | succ count inductionHypothesis =>
      rw [List.replicate_succ, List.foldl_cons, inductionHypothesis]
      by_cases empty : description = []
      · simp [empty, addLine]
      · simp [empty, addLine, List.replicate_succ]

theorem foldl_addLine_blanks_eq_self_iff {description : Text} {count : Nat} :
    (List.replicate count []).foldl addLine description = description ↔
      description = [] ∨ count = 0 := by
  rw [foldl_addLine_blanks]
  by_cases empty : description = [] <;> simp [empty]

/-- Text that ends with a line feed has a blank last line. -/
theorem getLast?_splitOn {text : Text} (last : text.getLast? = some '\n') :
    (text.splitOn '\n').getLast? = some [] := by
  obtain ⟨front, rfl⟩ := List.getLast?_eq_some_iff.mp last
  rw [List.splitOn_append_cons_self, List.splitOn_nil, List.getLast?_concat]

theorem getLast?_joinWith_concat {separator last : Text} (parts : List Text)
    (nonempty : last ≠ []) : (joinWith separator (parts ++ [last])).getLast? = last.getLast? := by
  by_cases single : parts = []
  · simp [single, joinWith]
  · rw [joinWith_concat last single, List.getLast?_append_of_ne_nil _ nonempty]

end Text

/-- A description stands below the other parts of a text, unless it is empty. -/
def withDescription (parts : List Text) (description : Text) : Text :=
  Text.joinWith ['\n'] (parts ++ if description = [] then [] else [description])

theorem withDescription_inj {parts : List Text} (nonempty : parts ≠ []) {left right : Text} :
    withDescription parts left = withDescription parts right ↔ left = right := by
  have whole (description : Text) : withDescription parts description =
      Text.joinWith ['\n'] parts ++ if description = [] then [] else '\n' :: description := by
    unfold withDescription
    split
    · rw [List.append_nil, List.append_nil]
    · rw [Text.joinWith_concat _ nonempty, List.append_assoc, List.singleton_append]
  rw [whole, whole, List.append_cancel_left_eq]
  by_cases noLeft : left = [] <;> by_cases noRight : right = [] <;>
    simp [noLeft, noRight, eq_comm]

/-- No line feed ends the text exactly if none ends the description. -/
theorem getLast?_withDescription_iff {parts : List Text} {last description : Text}
    (nonempty : last ≠ []) (noFeed : '\n' ∉ last) :
    (withDescription (parts ++ [last]) description).getLast? ≠ some '\n' ↔
      description.withoutFeedEnd = description := by
  rw [Text.withoutFeedEnd_eq_self_iff]
  by_cases empty : description = []
  · rw [empty, withDescription, if_pos rfl, List.append_nil,
      Text.getLast?_joinWith_concat parts nonempty]
    exact iff_of_true (fun feed => noFeed (List.mem_of_getLast? feed)) (by simp)
  · rw [withDescription, if_neg empty, Text.getLast?_joinWith_concat _ empty]

end GedcomGrammar
