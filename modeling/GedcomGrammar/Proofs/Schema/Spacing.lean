/-
This file proves that line ends and separating blank lines make no difference to a schema.
-/

import GedcomGrammar.Proofs.Schema.Blocks
import GedcomGrammar.Proofs.Text.Returns

namespace GedcomGrammar

/-- A blank line right behind a header adds nothing to the element. -/
theorem Element.addLine_nil_of_ofHeader {kind : ElementKind} {line : Text} {element : Element}
    (made : Element.ofHeader kind line = .ok element) : element.addLine [] = .ok element := by
  rw [← Element.bare_of_ofHeader made]
  cases element <;> rfl

namespace Schema

variable {schema other : Schema} {line : Text}

/-- The schema that lines leave with no element open, or the first error with its line's number. -/
def readLines (schema : Schema) (number : Nat) : List Text → Except ParseError Schema
  | [] => .ok schema.close
  | line :: rest =>
      match schema.readLine line with
      | .error error => .error (.atLine number error)
      | .ok extended => extended.readLines (number + 1) rest

theorem readLine_of_blank (blank : line.withoutLineEnd = []) :
    schema.readLine line = .ok schema.addBlank := by
  rw [readLine, addLine_of_blank blank]

theorem readLines_of_addLines (number : Nat) (lines : List Text) :
    (match schema.addLines number lines with
      | (_, some error) => .error error
      | (extended, none) => .ok extended.close) = schema.readLines number lines := by
  induction lines generalizing schema number with
  | nil => rfl
  | cons line rest inductionHypothesis =>
      rw [addLines, readLines, readLine]
      rcases schema.addLine line with ⟨next, _ | error⟩
      · exact inductionHypothesis (number + 1)
      · rfl

theorem readLines_blanks (schema : Schema) (number count : Nat) :
    schema.readLines number (List.replicate count []) = .ok schema.close := by
  induction count generalizing schema number with
  | zero => rfl
  | succ count inductionHypothesis =>
      rw [List.replicate_succ, readLines, readLine_of_blank rfl]
      exact (inductionHypothesis schema.addBlank (number + 1)).trans
        (congrArg Except.ok schema.close_addBlank)

theorem readLines_append_blanks (schema : Schema) (number count : Nat) (lines : List Text) :
    schema.readLines number (lines ++ List.replicate count []) =
      schema.readLines number lines := by
  induction lines generalizing schema number with
  | nil => exact schema.readLines_blanks number count
  | cons line rest inductionHypothesis =>
      rw [List.cons_append, readLines, readLines]
      cases schema.readLine line with
      | error error => rfl
      | ok extended => exact inductionHypothesis extended (number + 1)

theorem ofText_eq_readLines (text : Text) :
    ofText text = readLines {} 1 (text.splitOn '\n') := by
  obtain ⟨count, split⟩ := Text.lines_append_blanks text
  rw [split, readLines_append_blanks, ← readLines_of_addLines, ofText, addText]
  have closed : ({} : Schema).close = {} := rfl
  rw [closed]
  rcases ({} : Schema).addLines 1 text.lines with ⟨next, _ | error⟩
  · rfl
  · rfl

theorem readLine_withoutLineEnd (schema : Schema) (line : Text) :
    schema.readLine line.withoutLineEnd = schema.readLine line := by
  rw [readLine, addLine_withoutLineEnd, readLine]

theorem readLines_withoutLineEnd (schema : Schema) (number : Nat) (lines : List Text) :
    schema.readLines number (lines.map Text.withoutLineEnd) = schema.readLines number lines := by
  induction lines generalizing schema number with
  | nil => rfl
  | cons line rest inductionHypothesis =>
      rw [List.map_cons, readLines, readLines, readLine_withoutLineEnd]
      cases schema.readLine line with
      | error error => rfl
      | ok extended => exact inductionHypothesis extended (number + 1)

/-- A text has one schema, or one error, whatever carriage returns stand before its line ends. -/
theorem ofText_of_returns {text other : Text} (returns : Text.Returns text other) :
    ofText other = ofText text := by
  rw [ofText_eq_readLines, ofText_eq_readLines, ← readLines_withoutLineEnd,
    returns.map_withoutLineEnd, readLines_withoutLineEnd]

/-- The element that is open, if there is one, would take a blank line without a change. -/
def IgnoresBlanks (schema : Schema) : Prop :=
  ∀ element, schema.openElement? = some element → element.addLine [] = .ok element

theorem ignoresBlanks_of_readLine (header : Element.isHeader line.withoutLineEnd = true)
    (read : schema.readLine line = .ok other) : other.IgnoresBlanks := by
  obtain ⟨bare, made, rfl⟩ := (readLine_header_iff header).mp read
  intro element opened
  have found := Keyed.find?_insert_self Element.key bare schema.elements
  cases Option.some.inj (found.symm.trans opened)
  exact Element.addLine_nil_of_ofHeader made

theorem IgnoresBlanks.settleBlanks (ignores : schema.IgnoresBlanks) :
    schema.settleBlanks = schema.withBlanks 0 := by
  cases opened : schema.openElement? with
  | none => exact settleBlanks_of_closed opened
  | some element =>
      obtain ⟨key, isOpen, found⟩ := Option.bind_eq_some_iff.mp opened
      rw [← key_of_find? found] at isOpen found
      have held : schema.Open element := ⟨isOpen, found⟩
      obtain ⟨extended, read, settled⟩ := held.settleBlanks
      have unchanged (count : Nat) :
          (List.replicate count []).foldlM Element.addLine element = .ok element := by
        induction count with
        | zero => rfl
        | succ count inductionHypothesis =>
            exact foldlM_cons_eq_ok_iff.mpr
              ⟨element, ignores element opened, inductionHypothesis⟩
      rw [settled, ← Except.ok.inj ((unchanged schema.blanks).symm.trans read), held.insert_self]

/-- A header drops the blank lines that were waiting. -/
theorem readLine_withBlanks_of_isHeader (header : Element.isHeader line.withoutLineEnd = true)
    (count : Nat) : (schema.withBlanks count).readLine line = schema.readLine line := by
  rw [readLine, readLine, addLine_of_isHeader header, addLine_of_isHeader header, addHeader,
    addHeader]
  cases Element.ofHeader (Element.headerKind line.withoutLineEnd) line.withoutLineEnd with
  | error error => rfl
  | ok element => rfl

theorem IgnoresBlanks.readLine_withBlanks (ignores : schema.IgnoresBlanks)
    (content : line.withoutLineEnd ≠ []) (count : Nat) :
    (schema.withBlanks count).readLine line = schema.readLine line := by
  cases header : Element.isHeader line.withoutLineEnd with
  | true => exact readLine_withBlanks_of_isHeader header count
  | false =>
      have other : (schema.withBlanks count).IgnoresBlanks := ignores
      rw [readLine, readLine, addLine_of_not_isHeader content header,
        addLine_of_not_isHeader content header, addContinuation, addContinuation,
        ignores.settleBlanks, other.settleBlanks]
      rfl

/-- So many waiting blank lines are those of the schema, or the open element would ignore them. -/
def MayWait (schema : Schema) (count : Nat) : Prop :=
  count = schema.blanks ∨ schema.IgnoresBlanks

variable {count : Nat}

theorem MayWait.addBlank (waits : schema.MayWait count) :
    ∃ later, (schema.withBlanks count).addBlank = schema.addBlank.withBlanks later ∧
      schema.addBlank.MayWait later := by
  have opened : (schema.withBlanks count).opened = schema.opened := rfl
  rw [Schema.addBlank, Schema.addBlank, opened]
  split
  · exact ⟨count + 1, rfl, waits.imp (congrArg (· + 1)) id⟩
  · exact ⟨count, rfl, waits⟩

/-- Behind other waiting blank lines a line is refused alike or read alike. -/
theorem readLine_withBlanks_cases
    (reason : schema.MayWait count ∨ Element.isHeader line.withoutLineEnd = true) :
    (∃ error, schema.readLine line = .error error ∧
        (schema.withBlanks count).readLine line = .error error) ∨
      ∃ next later, schema.readLine line = .ok next ∧
        (schema.withBlanks count).readLine line = .ok (next.withBlanks later) ∧
          next.MayWait later := by
  by_cases blank : line.withoutLineEnd = []
  · have waits : schema.MayWait count :=
      reason.resolve_right fun header => absurd (blank ▸ header) (by decide)
    obtain ⟨later, added, waitsLater⟩ := waits.addBlank
    exact .inr ⟨schema.addBlank, later, readLine_of_blank blank,
      (readLine_of_blank blank).trans (congrArg Except.ok added), waitsLater⟩
  · have same : (schema.withBlanks count).readLine line = schema.readLine line := by
      rcases reason with (own | ignores) | header
      · rw [own]
        rfl
      · exact ignores.readLine_withBlanks blank count
      · exact readLine_withBlanks_of_isHeader header count
    rw [same]
    cases schema.readLine line with
    | error error => exact .inl ⟨error, rfl, rfl⟩
    | ok next => exact .inr ⟨next, next.blanks, rfl, rfl, .inl rfl⟩

/-- A gap only changes how many blank lines are waiting. -/
theorem exists_readLines_blanks (schema : Schema) (count gap : Nat) :
    ∃ waiting, (gap = 0 → waiting = count) ∧ ∀ number rest,
      (schema.withBlanks count).readLines number (List.replicate gap [] ++ rest) =
        (schema.withBlanks waiting).readLines (number + gap) rest := by
  induction gap generalizing count with
  | zero => exact ⟨count, fun _ => rfl, fun _ _ => rfl⟩
  | succ gap inductionHypothesis =>
      have blank : ∃ next, (schema.withBlanks count).addBlank = schema.withBlanks next := by
        rw [Schema.addBlank]
        split
        · exact ⟨count + 1, rfl⟩
        · exact ⟨count, rfl⟩
      obtain ⟨next, waits⟩ := blank
      obtain ⟨waiting, -, later⟩ := inductionHypothesis next
      refine ⟨waiting, fun none => absurd none (Nat.succ_ne_zero gap), fun number rest => ?_⟩
      rw [List.replicate_succ, List.cons_append, readLines, readLine_of_blank rfl, waits]
      exact (later (number + 1) rest).trans (by rw [Nat.add_right_comm, Nat.add_assoc])

/--
Lines with separating gaps are read like the lines alone, and errors move down by the gaps before.
The numbers of the lines so far are in `place`, which each step hands on to the rest.
-/
theorem readLines_widen {free : Bool} {gaps : List Nat} {lines : List Text}
    {number shifted : Nat} {place : Nat → Nat} (waits : schema.MayWait count)
    (ignores : free = true → schema.IgnoresBlanks)
    (apart : Text.separates free gaps lines = true)
    (places : ∀ later, place (number + later) = shifted + later + (gaps.take (later + 1)).sum) :
    (schema.withBlanks count).readLines shifted (Text.widen gaps lines) =
      (schema.readLines number lines).mapError (.renumber place) := by
  induction lines generalizing schema count free gaps number shifted with
  | nil => exact (schema.withBlanks count).readLines_blanks shifted (gaps.headD 0)
  | cons line rest inductionHypothesis =>
      rw [Text.separates, Bool.and_eq_true, Bool.or_eq_true, Bool.or_eq_true, beq_iff_eq] at apart
      obtain ⟨here, apartRest⟩ := apart
      obtain ⟨waiting, none, gap⟩ := schema.exists_readLines_blanks count (gaps.headD 0)
      have reason : schema.MayWait waiting ∨ Element.isHeader line.withoutLineEnd = true := by
        rcases here with (empty | isFree) | header
        · exact .inl (none empty ▸ waits)
        · exact .inl (.inr (ignores isFree))
        · exact .inr header
      have sums (later : Nat) :
          (gaps.take (later + 1)).sum = gaps.headD 0 + (gaps.tail.take later).sum := by
        cases gaps <;> simp
      rw [Text.widen, gap, readLines, readLines]
      rcases readLine_withBlanks_cases reason with
        ⟨error, refused, refusedOther⟩ | ⟨next, later, read, readOther, waitsLater⟩
      · rw [refused, refusedOther]
        have first := places 0
        rw [sums, List.take_zero, List.sum_nil, Nat.add_zero, Nat.add_zero, Nat.add_zero] at first
        exact congrArg (fun moved => Except.error (ParseError.atLine moved error)) first.symm
      · rw [read, readOther]
        refine inductionHypothesis waitsLater (fun header => ignoresBlanks_of_readLine header read)
          apartRest fun after => ?_
        rw [Nat.add_right_comm, Nat.add_assoc, places, sums]
        omega

theorem ofText_widened {gaps : List Nat} {text : Text}
    (apart : Text.separates true gaps (text.splitOn '\n') = true) :
    ofText (text.widened gaps) =
      (ofText text).mapError (.renumber fun number => number + (gaps.take number).sum) := by
  rw [ofText_eq_readLines, ofText_eq_readLines, Text.splitOn_widened]
  refine @readLines_widen {} 0 true gaps _ 1 1 _ (.inl rfl) (fun _ element opened => ?_) apart
    fun later => ?_
  · exact absurd opened (by simp [openElement?])
  · rw [Nat.add_comm 1 later]

/--
Carriage returns before line ends, and blank lines at the start, at the end and next to headers,
leave the schema of a text or its error. The line of an error moves down by the gaps before it.
-/
theorem ofText_spaced (text : Text) :
    (∀ other, Text.Returns text other → ofText other = ofText text) ∧
      ofText text.withReturns = ofText text ∧
        ∀ gaps, Text.separates true gaps (text.splitOn '\n') = true →
          ∀ other, Text.Returns (text.widened gaps) other →
            ofText other =
              (ofText text).mapError (.renumber fun number => number + (gaps.take number).sum) := by
  refine ⟨fun other => ofText_of_returns, ofText_of_returns text.returns_withReturns, ?_⟩
  intro gaps apart other returns
  exact (ofText_of_returns returns).trans (ofText_widened apart)

def monthsGrammar : Text :=
  Text.joinWith ['\n'] ["MONTH:= \x7bSize=3\x7d".toList, "[JAN|FEB]".toList,
    "NUMBER:= \x7bSize=1:9\x7d".toList, "DATES:=".toList, "n".toList]

/-- The last line is a row without anything behind its level, seven blank lines further down. -/
theorem ofText_monthsGrammar :
    Text.Returns monthsGrammar monthsGrammar.withReturns ∧
      ofText monthsGrammar.withReturns = .error (.atLine 5 (.row (.format (.emptyRow ['n'])))) ∧
      Text.separates true [1, 2, 1, 0, 3] (monthsGrammar.splitOn '\n') = true ∧
      ofText (monthsGrammar.widened [1, 2, 1, 0, 3]) =
        .error (.atLine 12 (.row (.format (.emptyRow ['n'])))) := by
  have failed : ofText monthsGrammar = .error (.atLine 5 (.row (.format (.emptyRow ['n'])))) := by
    decide +kernel
  have apart : Text.separates true [1, 2, 1, 0, 3] (monthsGrammar.splitOn '\n') = true := by
    decide +kernel
  have returns := Text.returns_withReturns monthsGrammar
  obtain ⟨returned, -, widened⟩ := ofText_spaced monthsGrammar
  refine ⟨returns, (returned _ returns).trans failed, apart, ?_⟩
  rw [widened _ apart _ (Text.returns_refl _), failed]
  rfl

end Schema

end GedcomGrammar
