/-
This file proves what one line does to a schema.
-/

import GedcomGrammar.Proofs.Results
import GedcomGrammar.Proofs.Text.Trimmed
import GedcomGrammar.Schema

namespace GedcomGrammar

namespace Schema

variable {schema : Schema} {line : Text}

theorem addLine_of_blank (blank : line.withoutLineEnd = []) :
    schema.addLine line = (schema.addBlank, none) := by
  rw [addLine, blank]

theorem addLine_of_isHeader (header : Element.isHeader line.withoutLineEnd = true) :
    schema.addLine line = schema.addHeader line.withoutLineEnd := by
  rw [addLine]
  split
  · rename_i blank
    rw [blank] at header
    exact absurd header (by decide)
  · exact if_pos header

theorem addLine_of_not_isHeader (content : line.withoutLineEnd ≠ [])
    (noHeader : Element.isHeader line.withoutLineEnd = false) :
    schema.addLine line = schema.addContinuation line.withoutLineEnd := by
  rw [addLine]
  split
  · rename_i blank
    exact absurd blank content
  · exact if_neg (ne_true_of_eq_false noHeader)

theorem key_of_find? {schema : Schema} {key : Element.Key} {element : Element}
    (found : schema.find? key = some element) : element.key = key := by
  simpa using List.find?_some found

theorem primitive?_eq_some_iff {schema : Schema} {label : Text} {primitive : Primitive} :
    schema.primitive? label = some primitive ↔
      schema.find? (.primitive, label) = some (.primitive primitive) := by
  unfold primitive?
  cases found : schema.find? (.primitive, label) with
  | none => simp
  | some element => cases element <;> simp

/-- A line is taken by the element that is open, if there is one. -/
theorem extend_eq_ok_iff {extended : Schema} :
    schema.extend line = .ok extended ↔ ∃ key element longer,
      schema.opened = some key ∧ schema.find? key = some element ∧
        element.addLine line = .ok longer ∧ schema.insert longer = extended := by
  rw [extend]
  cases opened : schema.opened with
  | none => simp
  | some key =>
      rw [Option.bind_some]
      cases found : schema.find? key with
      | none => simp [found]
      | some element =>
          cases added : element.addLine line with
          | error error => simp [found, added]
          | ok longer => simp [found, added]

/-- The line end plays no part. -/
theorem addLine_withoutLineEnd (schema : Schema) (line : Text) :
    schema.addLine line.withoutLineEnd = schema.addLine line := by
  have again : line.withoutLineEnd.withoutLineEnd = line.withoutLineEnd :=
    Text.trimEnd_trimEnd line
  rw [addLine, again, addLine]

@[simp] theorem opened_addBlank (schema : Schema) : schema.addBlank.opened = schema.opened := by
  rw [addBlank]
  split <;> rfl

theorem addBlank_of_closed (closed : schema.opened = none) : schema.addBlank = schema := by
  rw [addBlank, closed]
  rfl

/-- The element that takes the next line, if there is one. -/
def openElement? (schema : Schema) : Option Element :=
  schema.opened.bind schema.find?

theorem openElement?_of_closed (closed : schema.opened = none) : schema.openElement? = none := by
  rw [openElement?, closed, Option.bind_none]

theorem extend_of_closed (closed : schema.openElement? = none) (line : Text) :
    schema.extend line = .error (.orphanLine line) := by
  have none : schema.opened.bind schema.find? = none := closed
  rw [extend, none]

theorem settleBlanks_of_closed (closed : schema.openElement? = none) :
    schema.settleBlanks = { schema with blanks := 0 } := by
  have settled (count : Nat) : count.repeat extendBlank schema = schema := by
    induction count with
    | zero => rfl
    | succ count inductionHypothesis =>
        rw [Nat.repeat, inductionHypothesis, extendBlank, extend_of_closed closed]
  rw [settleBlanks, settled]

/-- While no element is open, a line with content and without a header mark is refused. -/
theorem addLine_of_closed (closed : schema.openElement? = none)
    (content : line.withoutLineEnd ≠ [])
    (noHeader : Element.isHeader line.withoutLineEnd = false) :
    schema.addLine line =
      ({ schema with blanks := 0 }, some (.orphanLine line.withoutLineEnd)) := by
  have stillClosed : ({ schema with blanks := 0 } : Schema).openElement? = none := closed
  rw [addLine_of_not_isHeader content noHeader, addContinuation, settleBlanks_of_closed closed,
    extend_of_closed stillClosed]

/-- What one blank line keeps, all waiting blank lines keep. -/
theorem settleBlanks_keeps {Kept : Schema → Prop} (kept : Kept schema)
    (each : ∀ held, Kept held → Kept held.extendBlank)
    (settled : ∀ held, Kept held → Kept { held with blanks := 0 }) : Kept schema.settleBlanks := by
  have many (count : Nat) : Kept (count.repeat extendBlank schema) := by
    induction count with
    | zero => exact kept
    | succ count inductionHypothesis => exact each _ inductionHypothesis
  exact settled _ (many schema.blanks)

theorem opened_extend {extended : Schema} (taken : schema.extend line = .ok extended) :
    extended.opened = schema.opened := by
  obtain ⟨_, _, longer, _, _, _, rfl⟩ := extend_eq_ok_iff.mp taken
  rfl

/-- A blank line is added to the open element, or there is none. -/
theorem extendBlank_cases (schema : Schema) :
    schema.extendBlank = schema ∨ schema.extend [] = .ok schema.extendBlank := by
  rw [extendBlank]
  cases schema.extend [] with
  | error error => exact .inl rfl
  | ok extended => exact .inr rfl

theorem opened_settleBlanks (schema : Schema) : schema.settleBlanks.opened = schema.opened := by
  refine @settleBlanks_keeps schema (fun held => held.opened = schema.opened) rfl ?_
    fun _ same => same
  intro held same
  rcases held.extendBlank_cases with unchanged | taken
  · rw [unchanged, same]
  · rw [opened_extend taken, same]

/-- What a line with some content can do to a schema. -/
inductive Outcome (schema : Schema) (content : Text) : Schema × Option ParseError → Prop
  | blank (empty : content = []) : Outcome schema content (schema.addBlank, none)
  | malformed (error : FormatError) (header : Element.isHeader content = true)
      (unmade : Element.ofHeader (Element.headerKind content) content = .error error) :
      Outcome schema content ({ schema with blanks := 0 }, some (.format error))
  | declared (element : Element) (header : Element.isHeader content = true)
      (made : Element.ofHeader (Element.headerKind content) content = .ok element) :
      Outcome schema content
        ({ schema.insert element with opened := some element.key, blanks := 0 }, none)
  | refused (error : ParseError) (present : content ≠ [])
      (noHeader : Element.isHeader content = false)
      (untaken : schema.settleBlanks.extend content = .error error) :
      Outcome schema content (schema.settleBlanks, some error)
  | extended (longer : Schema) (present : content ≠ [])
      (noHeader : Element.isHeader content = false)
      (taken : schema.settleBlanks.extend content = .ok longer) :
      Outcome schema content (longer, none)

theorem outcome_addLine (schema : Schema) (line : Text) :
    Outcome schema line.withoutLineEnd (schema.addLine line) := by
  by_cases blank : line.withoutLineEnd = []
  · rw [addLine_of_blank blank]
    exact .blank blank
  · cases header : Element.isHeader line.withoutLineEnd with
    | true =>
        rw [addLine_of_isHeader header, addHeader]
        cases made : Element.ofHeader (Element.headerKind line.withoutLineEnd)
            line.withoutLineEnd with
        | error error => exact .malformed error header made
        | ok element => exact .declared element header made
    | false =>
        rw [addLine_of_not_isHeader blank header, addContinuation]
        cases taken : schema.settleBlanks.extend line.withoutLineEnd with
        | error error => exact .refused error blank header taken
        | ok longer => exact .extended longer blank header taken

/-- A refused header loses the blank lines that were waiting, and any other line settles them. -/
theorem refused_cases {error : ParseError} (refused : (schema.addLine line).2 = some error) :
    (Element.isHeader line.withoutLineEnd = true ∧
        (schema.addLine line).1 = { schema with blanks := 0 }) ∨
      (Element.isHeader line.withoutLineEnd = false ∧
        schema.settleBlanks.extend line.withoutLineEnd = .error error ∧
        (schema.addLine line).1 = schema.settleBlanks) := by
  have outcome := schema.outcome_addLine line
  generalize schema.addLine line = result at outcome refused ⊢
  cases outcome with
  | blank empty => exact absurd refused (by simp)
  | malformed error header unmade => exact .inl ⟨header, rfl⟩
  | declared element header made => exact absurd refused (by simp)
  | refused error present noHeader untaken =>
      exact .inr ⟨noHeader, Option.some.inj refused ▸ untaken, rfl⟩
  | extended longer present noHeader taken => exact absurd refused (by simp)

/-- The schema after some lines, of which some may be refused. -/
def afterLines (schema : Schema) (lines : List Text) : Schema :=
  lines.foldl (fun held line => (held.addLine line).1) schema

/-- One more line, or the error that refuses it. -/
def readLine (schema : Schema) (line : Text) : Except ParseError Schema :=
  match schema.addLine line with
  | (_, some error) => .error error
  | (extended, none) => .ok extended

theorem readLine_eq_ok_iff {extended : Schema} :
    schema.readLine line = .ok extended ↔ schema.addLine line = (extended, none) := by
  rw [readLine]
  rcases schema.addLine line with ⟨next, _ | error⟩
  · simp
  · simp

/-- A header is read exactly if it declares an element, which it opens. -/
theorem readLine_header_iff (header : Element.isHeader line.withoutLineEnd = true)
    {extended : Schema} :
    schema.readLine line = .ok extended ↔ ∃ bare,
      Element.ofHeader (Element.headerKind line.withoutLineEnd) line.withoutLineEnd = .ok bare ∧
        { schema.insert bare with opened := some bare.key, blanks := 0 } = extended := by
  rw [readLine, addLine_of_isHeader header, addHeader]
  cases Element.ofHeader (Element.headerKind line.withoutLineEnd) line.withoutLineEnd with
  | error error => simp
  | ok bare => simp

theorem addLines_eq_iff {extended : Schema} {number : Nat} {lines : List Text} :
    schema.addLines number lines = (extended, none) ↔
      lines.foldlM readLine schema = .ok extended := by
  induction lines generalizing schema number with
  | nil =>
      rw [addLines, List.foldlM_nil, Prod.mk.injEq]
      exact ⟨fun same => congrArg Except.ok same.1, fun same => ⟨Except.ok.inj same, rfl⟩⟩
  | cons line rest inductionHypothesis =>
      rw [addLines, foldlM_cons_eq_ok_iff, readLine]
      rcases schema.addLine line with ⟨next, _ | error⟩
      · simp only [Except.ok.injEq, exists_eq_left']
        exact inductionHypothesis
      · simp

/-- One more text, or the error that refuses it. -/
def readText (schema : Schema) (text : Text) : Except ParseError Schema :=
  match schema.addText text with
  | (_, some error) => .error error
  | (extended, none) => .ok extended

theorem readText_eq_ok_iff {extended : Schema} {text : Text} :
    schema.readText text = .ok extended ↔ schema.addText text = (extended, none) := by
  rw [readText]
  rcases schema.addText text with ⟨next, _ | error⟩
  · simp
  · simp

/-- A text is read from a schema with no element open, and leaves none open. -/
theorem readText_eq_ok_iff_lines {target : Schema} {text : Text} :
    schema.readText text = .ok target ↔
      ∃ read, text.lines.foldlM readLine schema.close = .ok read ∧ read.close = target := by
  simp only [readText_eq_ok_iff, addText, ← @addLines_eq_iff schema.close _ 1]
  rcases schema.close.addLines 1 text.lines with ⟨next, _ | error⟩
  · simp
  · simp

end Schema

end GedcomGrammar
