/-
This file proves what structures are like that were read from lines.
-/

import GedcomGrammar.Proofs.Element.Described
import GedcomGrammar.Proofs.Results

namespace GedcomGrammar

namespace Structure

/-- A line of a description is no row, separates no groups and encloses none. -/
def IsDescription (line : Text) : Prop :=
  startsRow line = false ∧ line ≠ ['|'] ∧ line ≠ ['['] ∧ line ≠ [']']

/-- A structure that was read from lines. -/
structure Loaded (shape : Structure) : Prop where
  noSpace : ' ' ∉ shape.label
  noFeed : '\n' ∉ shape.label
  last : shape.label.getLast? ≠ some '}'
  described : Described IsDescription shape.description
  rows : ∀ row ∈ shape.rows, row.Legible

theorem isDescription_nil : IsDescription [] :=
  ⟨rfl, by decide, by decide, by decide⟩

/-- A structure header is the label and the mark, with no space and nothing around them. -/
theorem eq_of_ofHeader {line : Text} {shape : Structure} (read : ofHeader line = .ok shape) :
    ∃ label, shape = { label } ∧ ' ' ∉ line ∧ line = label ++ [':', '='] := by
  unfold ofHeader at read
  split at read
  · rename_i label found
    split at read
    · exact absurd read (by simp)
    · rename_i noSpace
      rw [List.contains_iff_mem] at noSpace
      exact ⟨label, (Except.ok.inj read).symm, noSpace, Text.dropTail?_eq_some_iff.mp found⟩
  · exact absurd read (by simp)

theorem loaded_ofHeader {line : Text} {shape : Structure} (noFeed : '\n' ∉ line)
    (kind : Element.headerKind line = .struct) (read : ofHeader line = .ok shape) :
    shape.Loaded := by
  obtain ⟨label, rfl, noSpace, rfl⟩ := eq_of_ofHeader read
  refine ⟨fun space => ?_, fun feed => ?_, fun last => ?_, .nil isDescription_nil, ?_⟩
  · exact noSpace (List.mem_append_left _ space)
  · exact noFeed (List.mem_append_left _ feed)
  · have closes : (Text.dropTail? ['}', ':', '='] (label ++ [':', '='])).isSome = true := by
      rw [Text.isSome_dropTail?_iff]
      obtain ⟨front, rfl⟩ := List.getLast?_eq_some_iff.mp last
      exact ⟨front, by simp⟩
    rw [Element.headerKind, closes] at kind
    split at kind <;> exact ElementKind.noConfusion kind
  · simp [rows, groups]

@[simp] theorem rows_addRow (shape : Structure) (row : Row) :
    (shape.addRow row).rows = shape.rows ++ [row] := by
  simp [rows, groups, addRow]

@[simp] theorem rows_addGroup (shape : Structure) : shape.addGroup.rows = shape.rows := by
  simp [rows, groups, addGroup]

/-- What one more line makes of a structure. -/
inductive Taken (shape : Structure) (line : Text) : Structure → Prop
  | row (row : Row) (starts : startsRow line = true) (read : Row.ofLine line = .ok row) :
      Taken shape line (shape.addRow row)
  | bar (separates : line = ['|']) : Taken shape line shape.addGroup
  | blank (empty : line = []) (begun : shape.rows ≠ []) : Taken shape line shape
  | bracket (encloses : line = ['['] ∨ line = [']']) : Taken shape line shape
  | described (usual : IsDescription line) (above : line = [] → shape.rows = []) :
      Taken shape line { shape with description := shape.description.addLine line }

theorem taken_of_addLine {shape longer : Structure} {line : Text}
    (added : shape.addLine line = .ok longer) : Taken shape line longer := by
  unfold addLine at added
  split at added
  · rename_i starts
    obtain ⟨row, read, rfl⟩ := map_eq_ok_iff.mp added
    exact .row row starts read
  · rename_i noRow
    split at added
    · rename_i separates
      exact Except.ok.inj added ▸ .bar separates
    · rename_i noBar
      split at added
      · rename_i ignored
        exact Except.ok.inj added ▸ .blank ignored.1 ignored.2
      · rename_i counts
        split at added
        · rename_i encloses
          exact Except.ok.inj added ▸ .bracket encloses
        · rename_i noBracket
          rw [not_or] at noBracket
          refine Except.ok.inj added ▸ .described ?_ fun empty => ?_
          · exact ⟨Bool.eq_false_iff.mpr noRow, noBar, noBracket.1, noBracket.2⟩
          · by_contra begun
            exact counts ⟨empty, begun⟩

theorem Loaded.addLine {shape extended : Structure} {line : Text} (loaded : shape.Loaded)
    (continues : Continuation line) (added : shape.addLine line = .ok extended) :
    extended.Loaded := by
  cases taken_of_addLine added with
  | row row _ read =>
      refine { loaded with rows := fun other member => ?_ }
      rw [rows_addRow, List.mem_append, List.mem_singleton] at member
      rcases member with old | rfl
      · exact loaded.rows other old
      · exact Row.legible_of_ofLine continues.noFeed continues.noMark read
  | bar _ => exact { loaded with rows := shape.rows_addGroup ▸ loaded.rows }
  | blank _ _ => exact loaded
  | bracket _ => exact loaded
  | described usual _ =>
      exact { loaded with described := loaded.described.addLine continues usual }

end Structure

end GedcomGrammar
