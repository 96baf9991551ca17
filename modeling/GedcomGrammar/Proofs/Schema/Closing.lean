/-
This file proves when no element takes the lines that follow a text.
-/

import GedcomGrammar.Proofs.Keyed.Insertions
import GedcomGrammar.Proofs.Schema.Blocks

namespace GedcomGrammar

namespace Schema

variable {schema : Schema} {line : Text}

/-- The element that is open is declared. -/
def Anchored (schema : Schema) : Prop :=
  ∀ key, schema.opened = some key → key ∈ schema.elements.map Element.key

namespace Anchored

theorem of_closed (closed : schema.opened = none) : schema.Anchored := by
  intro key opened
  exact absurd (closed.symm.trans opened) (by simp)

theorem extend (anchored : schema.Anchored) {extended : Schema}
    (taken : schema.extend line = .ok extended) : extended.Anchored := by
  obtain ⟨_, _, longer, _, _, _, rfl⟩ := extend_eq_ok_iff.mp taken
  intro key opened
  exact Keyed.mem_map_insert_iff.mpr (.inl (anchored key opened))

theorem settleBlanks (anchored : schema.Anchored) : schema.settleBlanks.Anchored := by
  refine settleBlanks_keeps anchored ?_ fun _ kept => kept
  intro held kept
  rcases held.extendBlank_cases with unchanged | taken
  · rwa [unchanged]
  · exact kept.extend taken

/-- Every line, refused or not, leaves only a declared element open. -/
theorem addLine (anchored : schema.Anchored) (line : Text) :
    (schema.addLine line).1.Anchored := by
  have outcome := schema.outcome_addLine line
  generalize schema.addLine line = result at outcome ⊢
  cases outcome with
  | blank empty =>
      rw [addBlank]
      split
      · exact anchored
      · exact anchored
  | malformed error header unmade => exact anchored
  | declared element header made =>
      intro key opened
      exact Keyed.mem_map_insert_iff.mpr (.inr (Option.some.inj opened).symm)
  | refused error present noHeader untaken => exact anchored.settleBlanks
  | extended longer present noHeader taken => exact anchored.settleBlanks.extend taken

theorem addLines (anchored : schema.Anchored) (number : Nat) (lines : List Text) :
    (schema.addLines number lines).1.Anchored := by
  induction lines generalizing schema number with
  | nil => exact anchored
  | cons line rest inductionHypothesis =>
      have first := anchored.addLine line
      rw [Schema.addLines]
      generalize schema.addLine line = taken at first ⊢
      obtain ⟨next, _ | error⟩ := taken
      · exact inductionHypothesis first (number + 1)
      · exact first

theorem exists_open (anchored : schema.Anchored) {key : Element.Key}
    (opened : schema.opened = some key) : ∃ element, schema.Open element := by
  obtain ⟨element, inside, same⟩ := List.mem_map.mp (anchored key opened)
  have declared : (schema.find? key).isSome = true := by
    rw [find?, Keyed.find?, List.find?_isSome]
    exact ⟨element, inside, by simpa using same⟩
  obtain ⟨found, first⟩ := Option.isSome_iff_exists.mp declared
  refine ⟨found, ?_⟩
  have own := key_of_find? first
  exact ⟨by rw [own]; exact opened, by rw [own]; exact first⟩

end Anchored

theorem anchored_addText (schema : Schema) (text : Text) : (schema.addText text).1.Anchored := by
  have lines := (Anchored.of_closed rfl : schema.close.Anchored).addLines 1 text.lines
  rw [addText]
  generalize schema.close.addLines 1 text.lines = taken at lines ⊢
  obtain ⟨next, _ | error⟩ := taken
  · exact .of_closed rfl
  · exact lines

/--
Every line with content and without a header mark is refused and defines nothing,
however many such lines are tried before it.
-/
def Idle (schema : Schema) : Prop :=
  ∀ tried, (∀ line ∈ tried, Element.isHeader line.withoutLineEnd = false) →
    ∀ line, line.withoutLineEnd ≠ [] → Element.isHeader line.withoutLineEnd = false →
      ((schema.afterLines tried).addLine line).2 = some (.orphanLine line.withoutLineEnd) ∧
        ((schema.afterLines tried).addLine line).1.elements = schema.elements

/-- With no element open, lines without a header mark open none and define nothing. -/
theorem afterLines_of_closed (closed : schema.opened = none) {lines : List Text}
    (noHeader : ∀ line ∈ lines, Element.isHeader line.withoutLineEnd = false) :
    (schema.afterLines lines).opened = none ∧
      (schema.afterLines lines).elements = schema.elements := by
  induction lines generalizing schema with
  | nil => exact ⟨closed, rfl⟩
  | cons line rest inductionHypothesis =>
      rw [List.forall_mem_cons] at noHeader
      have first : (schema.addLine line).1.opened = none ∧
          (schema.addLine line).1.elements = schema.elements := by
        by_cases blank : line.withoutLineEnd = []
        · rw [addLine_of_blank blank, addBlank_of_closed closed]
          exact ⟨closed, rfl⟩
        · rw [addLine_of_closed (openElement?_of_closed closed) blank noHeader.1]
          exact ⟨closed, rfl⟩
      obtain ⟨stillClosed, same⟩ := inductionHypothesis first.1 noHeader.2
      exact ⟨stillClosed, same.trans first.2⟩

/-- Every element takes a line that looks like no row, behind the blank lines before it. -/
theorem Open.exists_readLine {element : Element} (opened : schema.Open element)
    (continues : Continuation line) (content : line ≠ []) (noRow : Structure.startsRow line = false) :
    ∃ final, schema.readLine line = .ok final := by
  have noRows : ∀ other ∈ List.replicate schema.blanks [] ++ [line],
      Structure.startsRow other = false := by
    intro other member
    rcases List.mem_append.mp member with blank | last
    · rw [List.eq_of_mem_replicate blank]
      rfl
    · rwa [List.mem_singleton.mp last]
  obtain ⟨extended, read⟩ := element.exists_foldlM_of_not_startsRow noRows
  exact ⟨_, (opened.readLine continues content).mpr ⟨extended, read, rfl⟩⟩

theorem continuation_x : Continuation ['x'] :=
  ⟨by decide, by decide, by decide⟩

/-- An open element shows itself by taking a line. -/
theorem Anchored.idle_iff (anchored : schema.Anchored) : schema.Idle ↔ schema.opened = none := by
  constructor
  · intro idle
    by_contra isOpen
    obtain ⟨key, opened⟩ := Option.ne_none_iff_exists'.mp isOpen
    obtain ⟨element, takes⟩ := anchored.exists_open opened
    obtain ⟨final, read⟩ := takes.exists_readLine continuation_x (by decide) (by decide)
    have refused := (idle [] (by simp) ['x'] (by decide) (by decide)).1
    rw [afterLines, List.foldl_nil, readLine_eq_ok_iff.mp read] at refused
    exact absurd refused (by simp)
  · intro closed tried noHeader line content noHeaderLine
    obtain ⟨stillClosed, same⟩ := afterLines_of_closed closed noHeader
    rw [addLine_of_closed (openElement?_of_closed stillClosed) content noHeaderLine]
    exact ⟨rfl, same⟩

/-- A refused line leaves open what was open. -/
theorem opened_of_refused {error : ParseError} (refused : (schema.addLine line).2 = some error) :
    (schema.addLine line).1.opened = schema.opened := by
  rcases refused_cases refused with ⟨-, state⟩ | ⟨-, -, state⟩
  · rw [state]
  · rw [state, opened_settleBlanks]

/-- A line that is read opens an element exactly if it is a header, and closes none. -/
theorem opened_readLine_iff {next : Schema} (read : schema.readLine line = .ok next) :
    next.opened = none ↔
      schema.opened = none ∧ Element.isHeader line.withoutLineEnd = false := by
  have outcome := schema.outcome_addLine line
  rw [readLine_eq_ok_iff.mp read] at outcome
  cases outcome with
  | blank empty =>
      have noHeader : Element.isHeader line.withoutLineEnd = false := by rw [empty]; rfl
      rw [opened_addBlank]
      exact (and_iff_left noHeader).symm
  | declared element header made => simp [header]
  | extended longer present noHeader taken =>
      rw [opened_extend taken, opened_settleBlanks]
      exact (and_iff_left noHeader).symm

theorem opened_foldlM_iff {lines : List Text} {final : Schema}
    (read : lines.foldlM readLine schema = .ok final) :
    final.opened = none ↔
      schema.opened = none ∧ ∀ line ∈ lines, Element.isHeader line.withoutLineEnd = false := by
  induction lines generalizing schema with
  | nil => rw [← Except.ok.inj read]; simp
  | cons line rest inductionHypothesis =>
      obtain ⟨next, first, later⟩ := foldlM_cons_eq_ok_iff.mp read
      rw [inductionHypothesis later, opened_readLine_iff first, List.forall_mem_cons, and_assoc]

/-- Lines are read up to the one that is refused. -/
theorem exists_of_addLines_error {number : Nat} {lines : List Text} {error : ParseError}
    (refused : (schema.addLines number lines).2 = some error) :
    ∃ read line rest before cause, lines = read ++ line :: rest ∧
      read.foldlM readLine schema = .ok before ∧ (before.addLine line).2 = some cause ∧
      error = .atLine (number + read.length) cause ∧
      (schema.addLines number lines).1 = (before.addLine line).1 := by
  induction lines generalizing schema number with
  | nil => exact absurd refused (by simp [addLines])
  | cons line rest inductionHypothesis =>
      rw [addLines] at refused ⊢
      rcases taken : schema.addLine line with ⟨next, _ | cause⟩
      · rw [taken] at refused
        obtain ⟨read, last, others, before, cause, rfl, lines, fails, same, state⟩ :=
          inductionHypothesis refused
        refine ⟨line :: read, last, others, before, cause, rfl, ?_, fails, ?_, state⟩
        · exact foldlM_cons_eq_ok_iff.mpr ⟨next, readLine_eq_ok_iff.mpr taken, lines⟩
        · rw [same, List.length_cons]
          congr 1
          omega
      · rw [taken] at refused
        refine ⟨[], line, rest, schema, cause, rfl, rfl, by rw [taken], ?_, by rw [taken]⟩
        exact (Option.some.inj refused).symm

/-- A text leaves an element open exactly if a line is refused below a header that was read. -/
theorem idle_addText_iff (schema : Schema) (text : Text) :
    (schema.addText text).1.Idle ↔
      ∀ number error, (schema.addText text).2 = some (.atLine number error) →
        ∀ line ∈ text.lines.take (number - 1), Element.isHeader line.withoutLineEnd = false := by
  rw [(schema.anchored_addText text).idle_iff]
  rcases taken : schema.close.addLines 1 text.lines with ⟨next, _ | error⟩
  · have result : schema.addText text = (next.close, none) := by rw [addText, taken]
    rw [result]
    exact iff_of_true rfl fun _ _ refused => absurd refused (by simp)
  · have result : schema.addText text = (next, some error) := by rw [addText, taken]
    have refused : (schema.close.addLines 1 text.lines).2 = some error := by rw [taken]
    obtain ⟨read, line, rest, before, cause, lines, run, fails, rfl, state⟩ :=
      exists_of_addLines_error refused
    rw [taken] at state
    have opened : next.opened = before.opened :=
      (congrArg Schema.opened state).trans (opened_of_refused fails)
    have passed : text.lines.take (1 + read.length - 1) = read := by
      rw [lines, Nat.add_sub_cancel_left, List.take_left]
    rw [result, opened, opened_foldlM_iff run]
    constructor
    · intro closed number other same
      obtain ⟨rfl, rfl⟩ := ParseError.atLine.inj (Option.some.inj same)
      rw [passed]
      exact closed.2
    · intro none
      refine ⟨rfl, ?_⟩
      have noHeader := none (1 + read.length) cause rfl
      rwa [passed] at noHeader

/-- Below a header that is refused, the structure above it takes the next line. -/
theorem refused_header_leaves_open :
    (addText {} "S:=\nS T:=\n".toList).2 =
        some (.atLine 2 (.format (.header .struct "S T:=".toList))) ∧
      ((addText {} "S:=\nS T:=\n".toList).1.addLine "Stray.".toList).2 = none ∧
      ((addText {} "S:=\nS T:=\n".toList).1.addLine "Stray.".toList).1.text =
        "S:=\nStray.".toList := by
  decide +kernel

end Schema

end GedcomGrammar
