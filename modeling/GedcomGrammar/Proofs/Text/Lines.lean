/-
This file proves how text is joined from lines and split into them again.
-/

import GedcomGrammar.Proofs.Text.Cuts
import GedcomGrammar.Proofs.Text.Trimmed

namespace GedcomGrammar.Text

theorem notMem_of_mem_splitOn {separator : Char} {text part : Text}
    (member : part ∈ text.splitOn separator) : separator ∉ part := by
  induction text generalizing part with
  | nil => simp_all
  | cons head rest inductionHypothesis =>
      obtain ⟨first, others, split⟩ :=
        List.exists_cons_of_ne_nil (rest.splitOn_ne_nil separator)
      rw [List.splitOn_cons_eq_if_modifyHead, split, List.modifyHead_cons] at member
      rw [split] at inductionHypothesis
      split at member
      · rcases List.mem_cons.mp member with rfl | later
        · simp
        · exact inductionHypothesis later
      · rename_i different
        rcases List.mem_cons.mp member with rfl | later
        · have absent := inductionHypothesis List.mem_cons_self
          simp only [List.mem_cons, not_or]
          exact ⟨fun same => different (by simp [same]), absent⟩
        · exact inductionHypothesis (List.mem_cons_of_mem first later)

/-- An item that separates nothing goes to the last part. -/
theorem exists_splitOn_concat {Item : Type} [BEq Item] [LawfulBEq Item] {separator item : Item}
    (other : item ≠ separator) (items : List Item) :
    ∃ parts part, items.splitOn separator = parts ++ [part] ∧
      (items ++ [item]).splitOn separator = parts ++ [part ++ [item]] := by
  induction items with
  | nil => exact ⟨[], [], rfl, List.splitOn_eq_singleton (by simpa using other.symm)⟩
  | cons head rest inductionHypothesis =>
      obtain ⟨parts, part, split, splitMore⟩ := inductionHypothesis
      rw [List.cons_append, List.splitOn_cons_eq_if_modifyHead, List.splitOn_cons_eq_if_modifyHead,
        split, splitMore]
      by_cases separates : (head == separator) = true
      · rw [if_pos separates, if_pos separates]
        exact ⟨[] :: parts, part, rfl, rfl⟩
      · rw [if_neg separates, if_neg separates]
        cases parts with
        | nil => exact ⟨[], head :: part, rfl, rfl⟩
        | cons first others => exact ⟨(head :: first) :: others, part, rfl, rfl⟩

/-- Every part is a piece of the text. -/
theorem infix_of_mem_splitOn {separator : Char} {text part : Text}
    (member : part ∈ text.splitOn separator) : part <:+: text := by
  obtain ⟨before, after, split⟩ := List.append_of_mem member
  have joined : [separator].intercalate (text.splitOn separator) = text :=
    List.intercalate_splitOn separator
  rw [split] at joined
  rw [← joined]
  clear joined split member
  induction before with
  | nil =>
      cases after with
      | nil => simp
      | cons next rest =>
          rw [List.nil_append, List.intercalate_cons_cons, List.append_assoc]
          exact List.infix_append_left
  | cons first rest inductionHypothesis =>
      rw [List.cons_append, List.intercalate_cons_of_ne_nil (by simp)]
      exact List.infix_append_of_infix_right inductionHypothesis

/-- Joined parts fall apart again, each into its own pieces. -/
theorem splitOn_joinWith {separator : Char} {parts : List Text} (nonempty : parts ≠ []) :
    (joinWith [separator] parts).splitOn separator =
      parts.flatMap fun part => part.splitOn separator := by
  induction parts with
  | nil => exact absurd rfl nonempty
  | cons first rest inductionHypothesis =>
      by_cases last : rest = []
      · simp [last, joinWith]
      · rw [joinWith, List.intercalate_cons_of_ne_nil last, List.append_assoc,
          List.singleton_append, List.splitOn_append_cons_self, List.flatMap_cons]
        exact congrArg _ (inductionHypothesis last)

/-- A text that stands on a line of its own between joined parts stays such a line. -/
theorem splitOn_joinWith_between {separator : Char} {between : Text} {parts : List Text}
    (absent : separator ∉ between) (nonempty : parts ≠ []) :
    (joinWith (separator :: between ++ [separator]) parts).splitOn separator =
      [between].intercalate (parts.map fun part => part.splitOn separator) := by
  induction parts with
  | nil => exact absurd rfl nonempty
  | cons first rest inductionHypothesis =>
      by_cases last : rest = []
      · simp [last, joinWith]
      · have later := inductionHypothesis last
        have whole : joinWith (separator :: between ++ [separator]) (first :: rest) =
            first ++ separator :: (between ++ separator ::
              joinWith (separator :: between ++ [separator]) rest) := by
          rw [joinWith, List.intercalate_cons_of_ne_nil last, joinWith]
          simp
        rw [whole, List.splitOn_append_cons_self,
          List.splitOn_append_cons_self_of_not_mem absent, later, List.map_cons,
          List.intercalate_cons_of_ne_nil (by simpa using last), List.append_assoc,
          List.singleton_append]

theorem joinWith_splitOn (separator : Char) (text : Text) :
    joinWith [separator] (text.splitOn separator) = text :=
  List.intercalate_splitOn separator

theorem splitOn_joinWith_of_notMem {separator : Char} {parts : List Text} (nonempty : parts ≠ [])
    (absent : ∀ part ∈ parts, separator ∉ part) :
    (joinWith [separator] parts).splitOn separator = parts :=
  List.splitOn_intercalate separator absent nonempty

theorem flatMap_splitOn_of_notMem {separator : Char} {parts : List Text}
    (absent : ∀ part ∈ parts, separator ∉ part) :
    (parts.flatMap fun part => part.splitOn separator) = parts := by
  induction parts with
  | nil => rfl
  | cons first rest inductionHypothesis =>
      rw [List.flatMap_cons, List.splitOn_eq_singleton (absent first List.mem_cons_self),
        inductionHypothesis fun part member => absent part (List.mem_cons_of_mem first member),
        List.singleton_append]

theorem notMem_joinWith {char : Char} {separator : Text} {parts : List Text}
    (other : char ∉ separator) (absent : ∀ part ∈ parts, char ∉ part) :
    char ∉ joinWith separator parts := by
  induction parts with
  | nil => simp [joinWith]
  | cons first rest inductionHypothesis =>
      have front := absent first List.mem_cons_self
      have back := inductionHypothesis fun part member =>
        absent part (List.mem_cons_of_mem first member)
      by_cases last : rest = []
      · simpa [last, joinWith] using front
      · rw [joinWith, List.intercalate_cons_of_ne_nil last]
        simp only [List.mem_append, not_or]
        exact ⟨⟨front, other⟩, back⟩

/-- Text that a mark without the separator occurs in has the mark in one of its parts. -/
theorem infix_joinWith_iff {mark : Text} {separator : Char} {parts : List Text}
    (nonempty : mark ≠ []) (absent : separator ∉ mark) :
    mark <:+: joinWith [separator] parts ↔ ∃ part ∈ parts, mark <:+: part := by
  induction parts with
  | nil => simp [joinWith, nonempty]
  | cons first rest inductionHypothesis =>
      by_cases last : rest = []
      · simp [last, joinWith]
      · have later : mark <:+: [separator].intercalate rest ↔ ∃ part ∈ rest, mark <:+: part :=
          inductionHypothesis
        rw [joinWith, List.intercalate_cons_of_ne_nil last, List.append_assoc,
          List.singleton_append, infix_append_cons_iff nonempty absent, later]
        simp

/-- Every part brings a separator, but for one. -/
theorem length_joinWith (separator : Text) {parts : List Text} (nonempty : parts ≠ []) :
    (joinWith separator parts).length + separator.length =
      (parts.map fun part => part.length + separator.length).sum := by
  induction parts with
  | nil => exact absurd rfl nonempty
  | cons first rest inductionHypothesis =>
      by_cases single : rest = []
      · simp [single, joinWith]
      · have later := inductionHypothesis single
        rw [joinWith, List.intercalate_cons_of_ne_nil single, List.length_append,
          List.length_append, List.map_cons, List.sum_cons, ← later, joinWith]
        omega

theorem joinWith_concat {separator : Text} {parts : List Text} (last : Text)
    (nonempty : parts ≠ []) :
    joinWith separator (parts ++ [last]) = joinWith separator parts ++ separator ++ last := by
  induction parts with
  | nil => exact absurd rfl nonempty
  | cons first rest inductionHypothesis =>
      by_cases single : rest = []
      · simp [single, joinWith, List.intercalate_cons_cons]
      · have later : separator.intercalate (rest ++ [last]) =
            separator.intercalate rest ++ separator ++ last := inductionHypothesis single
        rw [joinWith, List.cons_append, List.intercalate_cons_of_ne_nil (by simp), later,
          joinWith, List.intercalate_cons_of_ne_nil single]
        simp only [List.append_assoc]

/-- A final line feed opens no line, and every other part is a line. -/
theorem lines_append_blanks (text : Text) :
    ∃ count, text.splitOn '\n' = text.lines ++ List.replicate count [] := by
  unfold lines
  dsimp only
  split
  · rename_i last
    refine ⟨1, ?_⟩
    rw [List.replicate_one, List.dropLast_append_getLast? [] last]
  · exact ⟨0, by simp⟩

theorem notMem_of_mem_lines {text line : Text} (member : line ∈ text.lines) : '\n' ∉ line := by
  obtain ⟨count, split⟩ := lines_append_blanks text
  exact notMem_of_mem_splitOn (split ▸ List.mem_append_left _ member)

/-- Lines added below a text stand under it in their order. -/
theorem foldl_addLine {text : Text} (started : text ≠ []) (more : List Text) :
    more.foldl addLine text = joinWith ['\n'] (text :: more) := by
  induction more generalizing text with
  | nil => simp [joinWith]
  | cons line rest inductionHypothesis =>
      rw [List.foldl_cons, addLine, if_neg started, inductionHypothesis (by simp)]
      cases rest <;> simp [joinWith, List.intercalate_cons_cons]

/-- A text grows from nothing out of its own lines, unless it starts with a blank one. -/
theorem foldl_addLine_splitOn {text : Text} (started : text.head? ≠ some '\n') :
    (text.splitOn '\n').foldl addLine [] = text := by
  obtain ⟨first, rest, split⟩ := List.exists_cons_of_ne_nil (text.splitOn_ne_nil '\n')
  have joined := joinWith_splitOn '\n' text
  rw [split] at joined ⊢
  rw [List.foldl_cons, addLine, if_pos rfl]
  by_cases blank : first = []
  · cases rest with
    | nil => simpa [blank, joinWith] using joined
    | cons next others =>
        rw [blank, joinWith, List.intercalate_cons_cons] at joined
        exact absurd (by simp [← joined]) started
  · rw [foldl_addLine blank, joined]

/-- A description without its blank end has the lines before that end. -/
theorem rdropWhile_splitOn {text : Text} (started : text.trimEnd (· == '\n') ≠ []) :
    (text.splitOn '\n').rdropWhile List.isEmpty = (text.trimEnd (· == '\n')).splitOn '\n' := by
  induction text using List.reverseRecOn with
  | nil => simp [trimEnd] at started
  | append_singleton front last inductionHypothesis =>
      by_cases feed : last = '\n'
      · have dropped : trimEnd (· == '\n') (front ++ [last]) = trimEnd (· == '\n') front :=
          trimEnd_append (by simp [feed])
        rw [dropped] at started ⊢
        rw [feed, List.splitOn_append_cons_self, List.splitOn_nil, List.rdropWhile_concat_pos]
        · exact inductionHypothesis started
        · rfl
      · have kept : trimEnd (· == '\n') (front ++ [last]) = front ++ [last] :=
          trimEnd_eq_self (by simp [feed])
        rw [kept, List.rdropWhile_eq_self_iff]
        intro nonempty blank
        rw [List.isEmpty_iff] at blank
        have joined := joinWith_splitOn '\n' (front ++ [last])
        rw [← List.dropLast_append_getLast nonempty, blank] at joined
        by_cases single : ((front ++ [last]).splitOn '\n').dropLast = []
        · simp [single, joinWith] at joined
        · rw [joinWith_concat [] single, List.append_nil] at joined
          exact feed (List.singleton_inj.mp (List.append_inj_right' joined rfl)).symm

end GedcomGrammar.Text
