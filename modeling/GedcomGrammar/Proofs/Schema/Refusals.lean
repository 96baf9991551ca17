/-
This file proves what a refused line leaves of the definitions.
-/

import GedcomGrammar.Proofs.Keyed.Insertions
import GedcomGrammar.Proofs.Schema.Blocks
import GedcomGrammar.Proofs.Structure.Settled

namespace GedcomGrammar

namespace Structure

/-- A description that has begun takes blank lines as long as no row has followed. -/
def afterBlanks (shape : Structure) (count : Nat) : Structure :=
  if shape.rows = [] ∧ shape.description ≠ [] then
    { shape with description := shape.description ++ List.replicate count '\n' }
  else shape

theorem foldlM_blanks (shape : Structure) (count : Nat) :
    (List.replicate count []).foldlM addLine shape = .ok (shape.afterBlanks count) := by
  by_cases noRows : shape.rows = []
  · have usual : ∀ line ∈ List.replicate count [], IsDescription line := fun line member =>
      (List.eq_of_mem_replicate member).symm ▸ isDescription_nil
    rw [foldlM_description noRows usual, Text.foldl_addLine_blanks, afterBlanks]
    by_cases empty : shape.description = []
    · rw [if_pos empty, if_neg (fun begun => begun.2 empty), ← empty]
    · rw [if_neg empty, if_pos ⟨noRows, empty⟩]
  · rw [afterBlanks, if_neg (fun begun => noRows begun.1)]
    induction count with
    | zero => rfl
    | succ count inductionHypothesis =>
        rw [List.replicate_succ, List.foldlM_cons, addLine_blank noRows]
        exact inductionHypothesis

theorem afterBlanks_zero (shape : Structure) : shape.afterBlanks 0 = shape := by
  rw [afterBlanks, List.replicate_zero, List.append_nil, ite_self]

@[simp] theorem key_afterBlanks (shape : Structure) (count : Nat) :
    (Element.struct (shape.afterBlanks count)).key = (Element.struct shape).key := by
  unfold afterBlanks
  split <;> rfl

theorem length_text_afterBlanks {shape : Structure} (noRows : shape.rows = [])
    (begun : shape.description ≠ []) (count : Nat) :
    (shape.afterBlanks count).text.length = shape.text.length + count := by
  have longer : shape.afterBlanks count =
      { shape with description := shape.description ++ List.replicate count '\n' } :=
    if_pos ⟨noRows, begun⟩
  have noRowsAfter : (shape.afterBlanks count).rows = [] := by rw [longer]; exact noRows
  rw [text_eq_of_noRows noRowsAfter, text_eq_of_noRows noRows, longer]
  simp [withDescription, Text.joinWith, begun, headerText]
  omega

end Structure

namespace Schema

variable {schema : Schema} {element : Element} {line : Text}

/-- An element that replaces another one changes the length of the text by the difference. -/
theorem length_text_insert {old : Element} (found : schema.find? element.key = some old) :
    (schema.insert element).text.length + old.text.length =
      schema.text.length + element.text.length := by
  have length {held : Schema} {inside : Element} (member : inside ∈ held.elements) :
      held.text.length + 2 = (held.elements.map fun other => other.text.length + 2).sum := by
    have present : held.elements.map Element.text ≠ [] :=
      List.ne_nil_of_mem (List.mem_map_of_mem member)
    have parts := Text.length_joinWith ['\n', '\n'] present
    rwa [List.map_map] at parts
  have before := length (mem_of_find? found)
  have inserted : (schema.insert element).find? element.key = some element :=
    Keyed.find?_insert_self Element.key element schema.elements
  have after := length (mem_of_find? inserted)
  have sums : ((schema.insert element).elements.map fun other => other.text.length + 2).sum +
      (old.text.length + 2) =
        (schema.elements.map fun other => other.text.length + 2).sum + (element.text.length + 2) :=
    Keyed.sum_insert found fun other => other.text.length + 2
  omega

theorem text_eq_of_elements {other : Schema} (same : other.elements = schema.elements) :
    other.text = schema.text := by
  rw [text, same, text]

theorem Open.openElement? (opened : schema.Open element) : schema.openElement? = some element := by
  rw [Schema.openElement?, opened.opened]
  exact opened.found

theorem open_of_openElement? (found : schema.openElement? = some element) :
    schema.Open element := by
  obtain ⟨key, opened, inside⟩ := Option.bind_eq_some_iff.mp found
  rw [← key_of_find? inside] at opened inside
  exact ⟨opened, inside⟩

/-- Only a structure refuses a line, behind the blank lines that were waiting. -/
theorem Open.exists_struct (opened : schema.Open element) {error : ParseError}
    (untaken : schema.settleBlanks.extend line = .error error) :
    ∃ shape, element = .struct shape ∧ schema.settleBlanks =
      (schema.insert (.struct (shape.afterBlanks schema.blanks))).withBlanks 0 := by
  obtain ⟨extended, read, settled⟩ := opened.settleBlanks
  have reopened := (opened.insert (Element.key_foldlM read)).withBlanks 0
  have refused (longer : Element) : extended.addLine line ≠ .ok longer := by
    intro added
    have taken := (reopened.extend line).mpr ⟨longer, added, rfl⟩
    rw [← settled, untaken] at taken
    exact absurd taken (by simp)
  by_cases kind : element.kind = .struct
  · cases element with
    | primitive content => exact ElementKind.noConfusion kind
    | tag content => exact ElementKind.noConfusion kind
    | struct shape =>
        rw [Element.foldlM_struct, shape.foldlM_blanks] at read
        exact ⟨shape, rfl, by rw [settled, ← Except.ok.inj read]⟩
  · have sameKind : extended.kind = element.kind := congrArg Prod.fst (Element.key_foldlM read)
    obtain ⟨longer, added⟩ := extended.exists_addLine_of_kind (by rwa [sameKind]) line
    exact absurd added (refused longer)

/--
Blank lines that wait go to a structure even if the line that follows them is refused.
Only a description without rows shows them.
-/
structure Spills (schema : Schema) (line : Text) : Prop where
  waiting : schema.blanks ≠ 0
  noHeader : Element.isHeader line.withoutLineEnd = false
  described : ∃ shape, schema.openElement? = some (.struct shape) ∧ shape.rows = [] ∧
    shape.description ≠ []

/-- What a refused line leaves of the definitions and their text. -/
structure Spares (schema : Schema) (line : Text) (after : Schema) : Prop where
  order : after.elements.map Element.key = schema.elements.map Element.key
  others : ∀ key, schema.opened ≠ some key → after.find? key = schema.find? key
  elements : after.elements = schema.elements ↔ ¬schema.Spills line
  text : after.text = schema.text ↔ ¬schema.Spills line
  spilled : schema.Spills line → ∀ shape, schema.openElement? = some (.struct shape) →
    after.openElement? = some (.struct (shape.afterBlanks schema.blanks))

theorem Spares.of_elements {after : Schema} (same : after.elements = schema.elements)
    (kept : ¬schema.Spills line) : schema.Spares line after where
  order := by rw [same]
  others key _ := by rw [find?, same, find?]
  elements := iff_of_true same kept
  text := iff_of_true (text_eq_of_elements same) kept
  spilled spills := absurd spills kept

/-- Blank lines that are spilled make the text longer. -/
theorem Open.text_ne_of_spills {shape : Structure} (opened : schema.Open (.struct shape))
    (waiting : schema.blanks ≠ 0) (noRows : shape.rows = []) (begun : shape.description ≠ []) :
    (schema.insert (.struct (shape.afterBlanks schema.blanks))).text ≠ schema.text := by
  intro same
  have found : schema.find? (Element.struct (shape.afterBlanks schema.blanks)).key =
      some (.struct shape) := by
    rw [shape.key_afterBlanks]
    exact opened.found
  have lengths := length_text_insert found
  have longer : (Element.struct (shape.afterBlanks schema.blanks)).text.length =
      (Element.struct shape).text.length + schema.blanks :=
    Structure.length_text_afterBlanks noRows begun schema.blanks
  rw [same] at lengths
  omega

/-- An element that replaces the open one leaves all others and their order. -/
theorem Open.order_insert (opened : schema.Open element) {extended : Element}
    (same : extended.key = element.key) :
    (schema.insert extended).elements.map Element.key = schema.elements.map Element.key := by
  have declared : extended.key ∈ schema.elements.map Element.key := by
    rw [same]
    exact List.mem_map_of_mem (mem_of_find? opened.found)
  exact (Keyed.map_insert Element.key extended schema.elements).trans (if_pos declared)

theorem Open.find?_insert (opened : schema.Open element) {extended : Element}
    (same : extended.key = element.key) {key : Element.Key} (other : schema.opened ≠ some key) :
    (schema.insert extended).find? key = schema.find? key :=
  Keyed.find?_insert_of_ne Element.key extended schema.elements key fun equal =>
    other (by rw [opened.opened, ← same, equal])

/-- The structure that is open takes the blank lines that were waiting. -/
theorem Open.spares {shape : Structure} (opened : schema.Open (.struct shape))
    (noHeader : Element.isHeader line.withoutLineEnd = false) :
    schema.Spares line
      ((schema.insert (.struct (shape.afterBlanks schema.blanks))).withBlanks 0) := by
  have sameKey := shape.key_afterBlanks schema.blanks
  by_cases spills : schema.blanks ≠ 0 ∧ shape.rows = [] ∧ shape.description ≠ []
  · obtain ⟨waiting, noRows, begun⟩ := spills
    have spilled : ¬¬schema.Spills line :=
      not_not_intro ⟨waiting, noHeader, shape, opened.openElement?, noRows, begun⟩
    have otherText := opened.text_ne_of_spills waiting noRows begun
    exact
      { order := opened.order_insert sameKey
        others := fun key other => opened.find?_insert sameKey other
        elements := iff_of_false (fun same => otherText (text_eq_of_elements same)) spilled
        text := iff_of_false otherText spilled
        spilled := by
          intro _ other found
          rw [opened.openElement?, Option.some.injEq, Element.struct.injEq] at found
          rw [← found]
          exact ((opened.insert sameKey).withBlanks 0).openElement? }
  · have unchanged : shape.afterBlanks schema.blanks = shape := by
      by_cases none : schema.blanks = 0
      · rw [none, shape.afterBlanks_zero]
      · exact if_neg fun begun => spills ⟨none, begun⟩
    rw [unchanged, opened.insert_self]
    refine .of_elements rfl fun spilled => ?_
    obtain ⟨waiting, -, other, found, begun⟩ := spilled
    rw [opened.openElement?, Option.some.injEq, Element.struct.injEq] at found
    exact spills ⟨waiting, found ▸ begun⟩

/-- A refused line changes a definition only by the blank lines that waited before it. -/
theorem spares_of_refused {error : ParseError} (refused : (schema.addLine line).2 = some error) :
    schema.Spares line (schema.addLine line).1 := by
  rcases refused_cases refused with ⟨header, state⟩ | ⟨noHeader, untaken, state⟩
  · rw [state]
    exact .of_elements rfl fun spilled => Bool.noConfusion (header.symm.trans spilled.noHeader)
  · rw [state]
    cases found : schema.openElement? with
    | none =>
        rw [settleBlanks_of_closed found]
        refine .of_elements rfl fun spilled => ?_
        obtain ⟨shape, described, -⟩ := spilled.described
        exact absurd (found.symm.trans described) (by simp)
    | some element =>
        have opened := open_of_openElement? found
        obtain ⟨shape, rfl, settled⟩ := opened.exists_struct untaken
        rw [settled]
        exact opened.spares noHeader

/-- A structure with a description and without rows, behind which a blank line waits. -/
def described : Schema :=
  { elements := [.struct { label := "S".toList, description := "Text.".toList }]
    opened := some (.struct, "S".toList)
    blanks := 1 }

theorem spares_malformed_header :
    (described.addLine "R T:=".toList).2 = some (.format (.header .struct "R T:=".toList)) ∧
      described.Spares "R T:=".toList (described.addLine "R T:=".toList).1 := by
  have refused : (described.addLine "R T:=".toList).2 =
      some (.format (.header .struct "R T:=".toList)) := by decide +kernel
  exact ⟨refused, spares_of_refused refused⟩

/-- A line that is no row although it starts like one lengthens the text above it. -/
theorem refused_row_spills :
    afterLines {} ["S:=".toList, "Text.".toList, []] = described ∧
      (described.addLine "n".toList).2 = some (.row (.format (.emptyRow "n".toList))) ∧
      described.text = "S:=\nText.".toList ∧
      (described.addLine "n".toList).1.text = "S:=\nText.\n".toList := by
  decide +kernel

end Schema

end GedcomGrammar
