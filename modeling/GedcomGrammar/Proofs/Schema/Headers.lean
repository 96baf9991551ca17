/-
This file proves how much of an accepted header of a tag or a structure is kept.
-/

import GedcomGrammar.Proofs.Element.Written
import GedcomGrammar.Proofs.Schema.Lines

namespace GedcomGrammar

namespace Element

/-- A tag header goes on behind its first header mark. -/
def Trails (line : Text) : Prop :=
  headerKind line = .tag ∧
    ∃ front dropped, Text.cut? headerMark line = some (front, dropped) ∧ dropped ≠ []

/-- What is kept of a header line: of a tag all up to the first mark, of a structure all. -/
def keptHeader (line : Text) : Text :=
  match headerKind line, Text.cut? headerMark line with
  | .tag, some (front, _) => front ++ headerMark
  | _, _ => line

/-- What a header line declares, and what the text of that declares in turn. -/
structure Declares (line : Text) (element : Element) : Prop where
  kind : element.kind = headerKind line
  text : element.text = keptHeader line
  whole : element.text = line ↔ ¬Trails line
  noEnd : element.text.withoutLineEnd = element.text
  header : isHeader element.text = true
  sameKind : headerKind element.text = headerKind line
  again : ofHeader (headerKind line) element.text = .ok element

end Element

namespace Tag

variable {line : Text} {tag : Tag}

theorem text_of_undescribed (undescribed : tag.description = []) : tag.text = tag.headerText :=
  if_pos undescribed

/-- No mark stands in front of the one that ends the written header. -/
theorem cut?_headerText_append (loaded : tag.Loaded) (dropped : Text) :
    Text.cut? headerMark (tag.headerText ++ dropped) =
      some (tag.code ++ [' ', '{'] ++ tag.label ++ ['}'], dropped) := by
  have noEqualsInCode : '=' ∉ tag.code := fun member =>
    absurd (loaded.codeChars '=' member) (by decide)
  have noEqualsInLabel : '=' ∉ tag.label := fun member =>
    absurd (loaded.labelChars '=' member) (by decide)
  have found := @Text.cut?_append_of_notMem ':' '=' []
    (tag.code ++ [' ', '{'] ++ tag.label ++ ['}']) dropped (by decide)
    (by simp [noEqualsInCode, noEqualsInLabel])
  simpa [headerText, headerMark] using found

/-- A tag keeps its header up to the first mark, whatever ends the line. -/
theorem declares_of_ofHeader (kind : Element.headerKind line = .tag)
    (read : ofHeader line = .ok tag) : Element.Declares line (.tag tag) := by
  have loaded := loaded_ofHeader read
  obtain ⟨undescribed, dropped, rfl⟩ := exists_append_of_ofHeader read
  have cut := cut?_headerText_append loaded dropped
  have written : (Element.tag tag).text = tag.headerText := text_of_undescribed undescribed
  exact
    { kind := kind.symm
      text := by
        rw [written, Element.keptHeader, kind, cut]
        simp [headerText, headerMark]
      whole := by
        -- The written header is the line exactly if nothing is dropped behind the mark.
        rw [written, List.self_eq_append_right, ← not_iff_not, not_not]
        constructor
        · intro more
          exact ⟨kind, _, dropped, cut, more⟩
        · rintro ⟨-, front, rest, same, more⟩
          rw [cut, Option.some.injEq, Prod.mk.injEq] at same
          rwa [same.2]
      noEnd := by rw [written]; exact loaded.header.noEnd
      header := by rw [written]; exact loaded.header.marked
      sameKind := by rw [written, headerKind_headerText, kind]
      again := by
        rw [kind, written, Element.ofHeader, ofHeader_headerText loaded, ← undescribed]
        rfl }

end Tag

namespace Structure

theorem declares_of_ofHeader {line : Text} {shape : Structure}
    (kind : Element.headerKind line = .struct) (read : ofHeader line = .ok shape) :
    Element.Declares line (.struct shape) := by
  obtain ⟨label, rfl, -, same⟩ := eq_of_ofHeader read
  have written : (Element.struct { label }).text = line := by
    rw [same]
    simp [Element.text, text, parts, headerText, rows, groups, Text.joinWith]
  have noTag : ¬Element.Trails line := fun trails =>
    ElementKind.noConfusion (kind.symm.trans trails.1)
  exact
    { kind := kind.symm
      text := by rw [written, Element.keptHeader, kind]
      whole := iff_of_true written noTag
      noEnd := by
        have kept := @Continuation.withoutLineEnd_concat (label ++ [':']) '=' (by decide)
          (by decide)
        rw [written, same]
        simpa using kept
      header := by
        rw [written, Element.isHeader_iff, same]
        exact ⟨label, [], by simp [headerMark]⟩
      sameKind := by rw [written]
      again := by rw [kind, written, Element.ofHeader, read]; rfl }

end Structure

/-- A header that is no primitive declares an element whose text declares it again. -/
theorem Element.declares_of_ofHeader {line : Text} {element : Element}
    (other : headerKind line ≠ .primitive)
    (made : ofHeader (headerKind line) line = .ok element) : Declares line element := by
  cases kind : headerKind line with
  | primitive => exact absurd kind other
  | tag =>
      rw [kind] at made
      obtain ⟨tag, read, rfl⟩ := map_eq_ok_iff.mp made
      exact Tag.declares_of_ofHeader kind read
  | struct =>
      rw [kind] at made
      obtain ⟨shape, read, rfl⟩ := map_eq_ok_iff.mp made
      exact Structure.declares_of_ofHeader kind read

namespace Schema

/-- What an accepted header line leaves, and what the text of its element does in any schema. -/
structure Registers (schema : Schema) (line : Text) (after : Schema) (element : Element) :
    Prop where
  registered : after.find? element.key = some element
  state : after = { schema.insert element with opened := some element.key, blanks := 0 }
  kind : element.kind = Element.headerKind line.withoutLineEnd
  text : element.text = Element.keptHeader line.withoutLineEnd
  whole : element.text = line.withoutLineEnd ↔ ¬Element.Trails line.withoutLineEnd
  sameKind : Element.headerKind element.text = Element.headerKind line.withoutLineEnd
  again : ∀ other : Schema, other.addLine element.text = other.addLine line

/--
An accepted header of a tag or a structure is reproduced whole, unless a tag header goes on behind
its first mark. The text of the element declares the same element in every schema.
-/
theorem registers_of_header {schema : Schema} {line : Text}
    (header : Element.isHeader line.withoutLineEnd = true)
    (other : Element.headerKind line.withoutLineEnd ≠ .primitive)
    (accepted : (schema.addLine line).2 = none) :
    ∃ element, schema.Registers line (schema.addLine line).1 element := by
  have outcome := schema.outcome_addLine line
  generalize result : schema.addLine line = taken at outcome accepted ⊢
  cases outcome with
  | blank empty => exact absurd header (by rw [empty]; decide)
  | malformed error marked unmade => exact absurd accepted (by simp)
  | refused error present noHeader untaken => exact absurd accepted (by simp)
  | extended longer present noHeader taken =>
      exact absurd (header.symm.trans noHeader) (by simp)
  | declared element marked made =>
      have declares := Element.declares_of_ofHeader other made
      refine ⟨element, ?_, rfl, declares.kind, declares.text, declares.whole, declares.sameKind, ?_⟩
      · exact Keyed.find?_insert_self Element.key element schema.elements
      · intro start
        have marked := declares.header
        rw [← declares.noEnd] at marked
        rw [addLine_of_isHeader marked, addLine_of_isHeader header, addHeader, addHeader,
          declares.noEnd, declares.sameKind, declares.again, made]

/-- A label with a dash, and a carriage return at the end of the line. -/
theorem registers_unique_id :
    let line : Text := "UID \x7bUNIQUE-ID\x7d:=\r".toList
    Element.isHeader line.withoutLineEnd = true ∧
      Element.headerKind line.withoutLineEnd ≠ .primitive ∧
        (addLine {} line).2 = none ∧
          ∃ element, Registers {} line (addLine {} line).1 element := by
  intro line
  have header : Element.isHeader line.withoutLineEnd = true := by decide +kernel
  have other : Element.headerKind line.withoutLineEnd ≠ .primitive := by decide +kernel
  have accepted : (addLine {} line).2 = none := by decide +kernel
  exact ⟨header, other, accepted, registers_of_header header other accepted⟩

/-- All that follows the first mark of an accepted tag header is missing from its text. -/
theorem trailing_header_dropped :
    let line : Text := "A \x7bB\x7d:= \x7bC\x7d:=".toList
    Element.headerKind line = .tag ∧ (addLine {} line).2 = none ∧
      (addLine {} line).1.text = "A \x7bB\x7d:=".toList ∧ (addLine {} line).1.text ≠ line := by
  decide +kernel

end Schema

end GedcomGrammar
