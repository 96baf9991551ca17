/-
This file proves which lines the text of a structure has.
-/

import GedcomGrammar.Proofs.Row.Rereading
import GedcomGrammar.Proofs.Structure.Loaded

namespace GedcomGrammar

/-- A row starts with its level and ends with the brace of its count. -/
theorem Row.text_eq (row : Row) :
    ∃ front, row.text = row.level.text ++ ' ' :: front ++ ['}'] := by
  obtain ⟨first, rest, items⟩ :=
    List.exists_cons_of_ne_nil (Body.items_ne_nil row.prefixed row.body)
  refine ⟨Text.joinWith [' '] (first :: rest) ++ ' ' :: '{' :: row.occurrence.innerText, ?_⟩
  rw [text, items, Text.joinWith_concat _ (by simp), Occurrence.text_eq]
  simp [Text.joinWith, List.intercalate_cons_cons]

theorem Row.continues {row : Row} (legible : row.Legible) : Continuation row.text where
  noFeed := noFeed_text legible
  noEnd := by
    obtain ⟨front, whole⟩ := row.text_eq
    rw [whole]
    exact Continuation.withoutLineEnd_concat (by decide) (by decide)
  noMark := noMark_text legible

@[simp] theorem Structure.startsRow_text (row : Row) : startsRow row.text = true := by
  obtain ⟨front, whole⟩ := row.text_eq
  rw [whole]
  cases row.level with
  | root => rfl
  | relative depth =>
      rw [Level.text]
      split <;> rfl

namespace Structure

/-- A group without rows is written as a blank line. -/
def groupLines (group : List Row) : List Text :=
  if group = [] then [[]] else group.map Row.text

/-- Several groups are written between lines of their own. -/
def groupsLines (shape : Structure) : List Text :=
  match shape.closedGroups with
  | [] => groupLines shape.lastGroup
  | _ => ['['] :: [['|']].intercalate (shape.groups.map groupLines) ++ [[']']]

/-- The lines of the rows and of what separates their groups. -/
def rowsLines (shape : Structure) : List Text :=
  if shape.rows = [] then [] else shape.groupsLines

/-- The lines below the header. -/
def body (shape : Structure) : List Text :=
  descriptionLines shape.description ++ shape.rowsLines

theorem splitOn_groupText {group : List Row} (legible : ∀ row ∈ group, row.Legible) :
    (groupText group).splitOn '\n' = groupLines group := by
  unfold groupText groupLines
  split
  · rename_i empty
    rw [empty]
    rfl
  · rename_i nonempty
    refine Text.splitOn_joinWith_of_notMem (by simpa using nonempty) fun line member => ?_
    obtain ⟨row, inside, rfl⟩ := List.mem_map.mp member
    exact Row.noFeed_text (legible row inside)

theorem legible_of_mem_groups {shape : Structure} (loaded : shape.Loaded) {group : List Row}
    (member : group ∈ shape.groups) : ∀ row ∈ group, row.Legible :=
  fun row inside => loaded.rows row (List.mem_flatten_of_mem member inside)

theorem splitOn_groupsText {shape : Structure} (loaded : shape.Loaded) :
    shape.groupsText.splitOn '\n' = shape.groupsLines := by
  have legible (group : List Row) (member : group ∈ shape.groups) :=
    splitOn_groupText (legible_of_mem_groups loaded member)
  have separated : (Text.joinWith ['\n', '|', '\n'] (shape.groups.map groupText)).splitOn '\n' =
      [['|']].intercalate ((shape.groups.map groupText).map fun text => text.splitOn '\n') :=
    Text.splitOn_joinWith_between (by decide : '\n' ∉ ['|']) (by simp [groups])
  unfold groupsText groupsLines
  cases closed : shape.closedGroups with
  | nil => exact legible shape.lastGroup (by simp [groups])
  | cons first rest =>
      dsimp only
      have opened (inner : Text) : (['[', '\n'] ++ inner ++ ['\n', ']']).splitOn '\n' =
          ['['] :: inner.splitOn '\n' ++ [[']']] := by
        have bracket : ('[' :: '\n' :: (inner ++ ['\n', ']'])).splitOn '\n' =
            ['['] :: (inner ++ ['\n', ']']).splitOn '\n' :=
          List.splitOn_append_cons_self_of_not_mem (by decide : '\n' ∉ ['[']) _
        simp only [List.cons_append, List.nil_append, bracket, List.splitOn_append_cons_self]
        rfl
      rw [opened, separated, List.map_map]
      congr 3
      exact List.map_congr_left legible

theorem splitOn_text {shape : Structure} (loaded : shape.Loaded)
    (noFeed : '\n' ∉ shape.headerText) :
    shape.text.splitOn '\n' = shape.headerText :: shape.body := by
  have groups : ((if shape.rows = [] then [] else [shape.groupsText]).flatMap
      fun part => part.splitOn '\n') = shape.rowsLines := by
    unfold rowsLines
    split
    · rfl
    · rw [List.flatMap_singleton, splitOn_groupsText loaded]
  have parts : shape.parts = shape.headerText ::
      ((if shape.description = [] then [] else [shape.description]) ++
        (if shape.rows = [] then [] else [shape.groupsText])) := rfl
  rw [text, parts, splitOn_parts noFeed, List.flatMap_append, flatMap_splitOn_description, groups,
    body]

theorem continues_groupLines {group : List Row} (legible : ∀ row ∈ group, row.Legible)
    {line : Text} (member : line ∈ groupLines group) : Continuation line := by
  unfold groupLines at member
  split at member
  · exact List.mem_singleton.mp member ▸ Continuation.nil
  · obtain ⟨row, inside, rfl⟩ := List.mem_map.mp member
    exact Row.continues (legible row inside)

theorem mem_intercalate {Item : Type} {separator : List Item} {parts : List (List Item)}
    {item : Item} (member : item ∈ separator.intercalate parts) :
    item ∈ separator ∨ ∃ part ∈ parts, item ∈ part := by
  induction parts with
  | nil => simp at member
  | cons first rest inductionHypothesis =>
      by_cases last : rest = []
      · exact .inr ⟨first, by simp, by simpa [last] using member⟩
      · rw [List.intercalate_cons_of_ne_nil last, List.mem_append, List.mem_append] at member
        rcases member with (inFirst | between) | later
        · exact .inr ⟨first, by simp, inFirst⟩
        · exact .inl between
        · rcases inductionHypothesis later with between | ⟨part, inRest, inside⟩
          · exact .inl between
          · exact .inr ⟨part, List.mem_cons_of_mem first inRest, inside⟩

theorem continues_groupsLines {shape : Structure} (loaded : shape.Loaded) {line : Text}
    (member : line ∈ shape.groupsLines) : Continuation line := by
  have bracket (char : Char) (other : char ∈ ['[', '|', ']']) : Continuation [char] := by
    simp only [List.mem_cons, List.not_mem_nil, or_false] at other
    rcases other with rfl | rfl | rfl <;> exact ⟨by decide, by decide, by decide⟩
  unfold groupsLines at member
  split at member
  · exact continues_groupLines (legible_of_mem_groups loaded (by simp [groups])) member
  · rw [List.mem_append, List.mem_cons, List.mem_singleton] at member
    rcases member with (rfl | inside) | rfl
    · exact bracket '[' (by decide)
    · rcases mem_intercalate inside with between | ⟨lines, written, within⟩
      · exact List.mem_singleton.mp between ▸ bracket '|' (by decide)
      · obtain ⟨group, inGroups, rfl⟩ := List.mem_map.mp written
        exact continues_groupLines (legible_of_mem_groups loaded inGroups) within
    · exact bracket ']' (by decide)

theorem Loaded.continues {shape : Structure} (loaded : shape.Loaded) {line : Text}
    (member : line ∈ shape.body) : Continuation line := by
  rw [body, List.mem_append] at member
  rcases member with described | inRows
  · exact (loaded.described.continues described).1
  · unfold rowsLines at inRows
    split at inRows
    · exact absurd inRows List.not_mem_nil
    · exact continues_groupsLines loaded inRows

theorem Loaded.header {shape : Structure} (loaded : shape.Loaded) : Header shape.headerText where
  noFeed := by simp [headerText, loaded.noFeed]
  noEnd := by
    have kept := @Continuation.withoutLineEnd_concat (shape.label ++ [':']) '=' (by decide)
      (by decide)
    simpa [headerText] using kept
  marked := by
    rw [Element.isHeader_iff]
    exact ⟨shape.label, [], by simp [headerText, headerMark]⟩

/-- A label does not end with a brace, which tells its header from the header of a tag. -/
theorem headerKind_headerText {shape : Structure} (loaded : shape.Loaded) :
    Element.headerKind shape.headerText = .struct := by
  have notClosed : Text.dropTail? ['}'] shape.headerText = none := by
    have other := @Text.dropTail?_singleton_of_ne (shape.label ++ [':']) '=' '}' (by decide)
    simpa [headerText] using other
  have notTag : (Text.dropTail? ['}', ':', '='] shape.headerText).isSome = false := by
    rw [← Bool.not_eq_true, Text.isSome_dropTail?_iff]
    rintro ⟨front, same⟩
    have label : front ++ ['}'] = shape.label := by
      have whole : front ++ ['}'] ++ [':', '='] = shape.label ++ [':', '='] := by
        simpa [headerText] using same
      exact List.append_cancel_right whole
    exact loaded.last (by rw [← label, List.getLast?_concat])
  rw [Element.headerKind, notClosed, notTag]
  rfl

theorem ofHeader_headerText {shape : Structure} (loaded : shape.Loaded) :
    ofHeader shape.headerText = .ok { label := shape.label } := by
  have labelled : Text.dropTail? [':', '='] shape.headerText = some shape.label :=
    Text.dropTail?_eq_some_iff.mpr rfl
  have noSpace : ¬shape.headerText.contains ' ' = true := by
    simp [headerText, loaded.noSpace]
  simp only [ofHeader, labelled]
  rw [if_neg noSpace]

end Structure

end GedcomGrammar
