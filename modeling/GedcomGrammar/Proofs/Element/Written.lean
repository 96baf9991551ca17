/-
This file proves which lines the text of an element has.
-/

import GedcomGrammar.Proofs.Element.Loaded
import GedcomGrammar.Proofs.Primitive.Written
import GedcomGrammar.Proofs.Structure.Written

namespace GedcomGrammar

namespace Element

def headerText : Element → Text
  | .primitive content => content.headerText
  | .tag content => content.headerText
  | .struct content => content.headerText

/-- The lines below the header. -/
def body : Element → List Text
  | .primitive content => content.body
  | .tag content => content.body
  | .struct content => content.body

/-- The element that its header alone declares. -/
def bare : Element → Element
  | .primitive content =>
      .primitive { label := content.label, sizeMin := content.sizeMin, sizeMax := content.sizeMax }
  | .tag content => .tag { content with description := [] }
  | .struct content => .struct { label := content.label }

@[simp] theorem key_bare (element : Element) : element.bare.key = element.key := by
  cases element <;> rfl

/-- A header declares an element that has nothing but this header. -/
theorem bare_of_ofHeader {kind : ElementKind} {line : Text} {element : Element}
    (made : ofHeader kind line = .ok element) : element.bare = element := by
  cases kind with
  | primitive =>
      obtain ⟨content, read, rfl⟩ := map_eq_ok_iff.mp made
      unfold Primitive.ofHeader at read
      split at read
      · exact absurd read (by simp)
      · split at read
        · exact absurd read (by simp)
        · cases Except.ok.inj read
          rfl
  | tag =>
      obtain ⟨content, read, rfl⟩ := map_eq_ok_iff.mp made
      rw [bare, ← (Tag.exists_append_of_ofHeader read).1]
  | struct =>
      obtain ⟨content, read, rfl⟩ := map_eq_ok_iff.mp made
      obtain ⟨label, rfl, -⟩ := Structure.eq_of_ofHeader read
      rfl

theorem Loaded.header {element : Element} (loaded : element.Loaded) :
    Header element.headerText := by
  cases element with
  | primitive content => exact Primitive.Loaded.header loaded
  | tag content => exact Tag.Loaded.header loaded
  | struct content => exact Structure.Loaded.header loaded

theorem Loaded.continues {element : Element} (loaded : element.Loaded) {line : Text}
    (member : line ∈ element.body) : Continuation line := by
  cases element with
  | primitive content => exact Primitive.Loaded.continues loaded member
  | tag content => exact (Described.continues (Tag.Loaded.described loaded) member).1
  | struct content => exact Structure.Loaded.continues loaded member

/-- A written element is its header and the lines below. -/
theorem Loaded.splitOn_text {element : Element} (loaded : element.Loaded) :
    element.text.splitOn '\n' = element.headerText :: element.body := by
  have noFeed := loaded.header.noFeed
  cases element with
  | primitive content => exact Primitive.splitOn_text loaded noFeed
  | tag content => exact Tag.splitOn_text noFeed
  | struct content => exact Structure.splitOn_text loaded noFeed

/-- A written header declares the element that has nothing but this header. -/
theorem Loaded.ofHeader_headerText {element : Element} (loaded : element.Loaded) :
    ofHeader (headerKind element.headerText) element.headerText = .ok element.bare := by
  cases element with
  | primitive content =>
      simp only [headerText, Primitive.headerKind_headerText, ofHeader,
        Primitive.ofHeader_headerText loaded, Except.map, bare]
  | tag content =>
      simp only [headerText, Tag.headerKind_headerText, ofHeader,
        Tag.ofHeader_headerText loaded, Except.map, bare]
  | struct content =>
      simp only [headerText, Structure.headerKind_headerText loaded, ofHeader,
        Structure.ofHeader_headerText loaded, Except.map, bare]

end Element

end GedcomGrammar
