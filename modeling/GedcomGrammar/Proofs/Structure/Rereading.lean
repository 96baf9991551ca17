/-
This file proves what a structure becomes when its written lines are read again.
-/

import GedcomGrammar.Proofs.Element.BlankEnd
import GedcomGrammar.Proofs.Structure.Written

namespace GedcomGrammar

/-- The row that the text of a row makes, if it makes any. -/
def Row.reread (row : Row) : Row :=
  (ofLine row.text).toOption.getD row

/-- The text of a row makes a row. -/
def Row.Readable (row : Row) : Prop :=
  ofLine row.text = .ok row.reread

theorem Row.readable_of_ok {row again : Row} (read : ofLine row.text = .ok again) :
    row.Readable ∧ row.reread = again := by
  rw [Readable, reread, read]
  exact ⟨rfl, rfl⟩

namespace Structure

theorem label_addLine {start extended : Structure} {line : Text}
    (added : start.addLine line = .ok extended) : extended.label = start.label := by
  cases taken_of_addLine added <;> rfl

theorem addLine_row {start : Structure} {row : Row} (readable : row.Readable) :
    start.addLine row.text = .ok (start.addRow row.reread) := by
  rw [addLine, if_pos (startsRow_text row), readable]
  rfl

theorem addLine_description {start : Structure} {line : Text} (usual : IsDescription line)
    (blank : line = [] → start.rows = []) :
    start.addLine line =
      .ok { start with description := start.description.addLine line } := by
  obtain ⟨noRow, noBar, noOpen, noClose⟩ := usual
  have notIgnored : ¬(line = [] ∧ start.rows ≠ []) := fun ⟨empty, started⟩ => started (blank empty)
  rw [addLine, if_neg (by simp [noRow]), if_neg noBar, if_neg notIgnored,
    if_neg (by simp [noOpen, noClose])]

theorem addLine_blank {start : Structure} (started : start.rows ≠ []) :
    start.addLine [] = .ok start := by
  rw [addLine, if_neg (by simp [startsRow]), if_neg (by simp), if_pos ⟨rfl, started⟩]

theorem foldlM_description {start : Structure} (noRows : start.rows = []) {lines : List Text}
    (usual : ∀ line ∈ lines, IsDescription line) :
    lines.foldlM addLine start =
      .ok { start with description := lines.foldl Text.addLine start.description } := by
  induction lines generalizing start with
  | nil => rfl
  | cons line rest inductionHypothesis =>
      have added := addLine_description (usual line List.mem_cons_self) fun _ => noRows
      rw [List.foldlM_cons, added]
      exact @inductionHypothesis { start with description := start.description.addLine line }
        noRows fun other member => usual other (List.mem_cons_of_mem line member)

theorem foldlM_rows {start : Structure} {rows : List Row}
    (readable : ∀ row ∈ rows, row.Readable) :
    (rows.map Row.text).foldlM addLine start =
      .ok { start with lastGroup := start.lastGroup ++ rows.map Row.reread } := by
  induction rows generalizing start with
  | nil => rw [List.map_nil, List.map_nil, List.append_nil]; rfl
  | cons row rest inductionHypothesis =>
      have later := @inductionHypothesis (start.addRow row.reread)
        fun other member => readable other (List.mem_cons_of_mem row member)
      rw [List.map_cons, List.foldlM_cons, addLine_row (readable row List.mem_cons_self)]
      refine later.trans ?_
      simp [addRow]

/-- The number of groups in front of the first row. -/
def emptyLead (groups : List (List Row)) : Nat :=
  (groups.takeWhile List.isEmpty).length

/-- A group without rows lengthens a description that no row has followed. -/
def describeLead (start : Structure) (groups : List (List Row)) : Text :=
  if start.rows = [] then
    (List.replicate (emptyLead groups) []).foldl Text.addLine start.description
  else start.description

@[simp] theorem emptyLead_cons_nil (groups : List (List Row)) :
    emptyLead ([] :: groups) = emptyLead groups + 1 := by
  simp [emptyLead]

theorem emptyLead_cons_of_ne_nil {group : List Row} (nonempty : group ≠ [])
    (groups : List (List Row)) : emptyLead (group :: groups) = 0 := by
  simp [emptyLead, nonempty]

theorem describeLead_of_started {start : Structure} (started : start.rows ≠ [])
    (groups : List (List Row)) : start.describeLead groups = start.description :=
  if_neg started

theorem describeLead_of_ne_nil {group : List Row} (nonempty : group ≠ []) (start : Structure)
    (groups : List (List Row)) : start.describeLead (group :: groups) = start.description := by
  rw [describeLead, emptyLead_cons_of_ne_nil nonempty]
  split <;> rfl

theorem foldlM_group {start : Structure} {group : List Row} (empty : start.lastGroup = [])
    (readable : ∀ row ∈ group, row.Readable) :
    (groupLines group).foldlM addLine start =
      .ok { start with
        description := start.describeLead [group]
        lastGroup := group.map Row.reread } := by
  by_cases blank : group = []
  · rw [blank, groupLines, if_pos rfl, List.foldlM_cons, List.map_nil, ← empty]
    by_cases started : start.rows = []
    · have lead : emptyLead [start.lastGroup] = 1 := by rw [empty]; rfl
      rw [addLine_description isDescription_nil fun _ => started, describeLead, if_pos started,
        lead]
      rfl
    · rw [addLine_blank started, describeLead_of_started started]
      rfl
  · rw [groupLines, if_neg blank, foldlM_rows readable, empty, List.nil_append,
      describeLead_of_ne_nil blank]

/-- The structure after one more group, with an empty group opened behind it. -/
def afterGroup (start : Structure) (group : List Row) : Structure :=
  { start with
    description := start.describeLead [group]
    closedGroups := start.closedGroups ++ [group.map Row.reread]
    lastGroup := [] }

theorem rows_afterGroup {start : Structure} (empty : start.lastGroup = []) (group : List Row) :
    (start.afterGroup group).rows = start.rows ++ group.map Row.reread := by
  simp [afterGroup, rows, groups, empty]

theorem describeLead_afterGroup {start : Structure} (empty : start.lastGroup = [])
    (group : List Row) (groups : List (List Row)) :
    (start.afterGroup group).describeLead groups = start.describeLead (group :: groups) := by
  have rows := rows_afterGroup empty group
  by_cases started : start.rows = []
  · by_cases blank : group = []
    · rw [blank] at rows ⊢
      rw [describeLead, rows, started, describeLead, if_pos started, emptyLead_cons_nil]
      simp only [List.map_nil, List.append_nil, if_true]
      rw [afterGroup, describeLead, if_pos started, List.replicate_succ, List.foldl_cons]
      rfl
    · have later : (start.afterGroup group).rows ≠ [] := by simp [rows, blank]
      rw [describeLead_of_started later, describeLead_of_ne_nil blank, afterGroup,
        describeLead_of_ne_nil blank]
  · have later : (start.afterGroup group).rows ≠ [] := by simp [rows, started]
    rw [describeLead_of_started later, describeLead_of_started started, afterGroup,
      describeLead_of_started started]

/-- The lines of groups make their rows again, group by group. -/
theorem foldlM_groups {start : Structure} {closed : List (List Row)} {last : List Row}
    (empty : start.lastGroup = [])
    (readable : ∀ group ∈ closed ++ [last], ∀ row ∈ group, row.Readable) :
    ([['|']].intercalate ((closed ++ [last]).map groupLines)).foldlM addLine start =
      .ok { start with
        description := start.describeLead (closed ++ [last])
        closedGroups := start.closedGroups ++ closed.map (List.map Row.reread)
        lastGroup := last.map Row.reread } := by
  induction closed generalizing start with
  | nil =>
      have only := foldlM_group empty (readable last (by simp))
      simpa using only
  | cons group rest inductionHypothesis =>
      have first := foldlM_group empty (readable group (by simp))
      have bar : ({ start with
          description := start.describeLead [group]
          lastGroup := group.map Row.reread } : Structure).addLine ['|'] =
            .ok (start.afterGroup group) := by
        simp [addLine, startsRow, addGroup, afterGroup, groups]
      have later := @inductionHypothesis (start.afterGroup group) rfl fun other member =>
        readable other (List.mem_cons_of_mem group member)
      rw [List.cons_append, List.map_cons, List.intercalate_cons_of_ne_nil (by simp),
        List.append_assoc, List.foldlM_append, first]
      change (addLine { start with
        description := start.describeLead [group]
        lastGroup := group.map Row.reread } ['|'] >>= fun next => List.foldlM addLine next _) = _
      rw [bar]
      refine later.trans ?_
      rw [describeLead_afterGroup empty]
      simp [afterGroup]

/--
Without rows, the groups and the end of the description are lost.
With rows, empty groups in front of the first row lengthen the description.
-/
def reread (shape : Structure) : Structure :=
  if shape.rows = [] then
    { label := shape.label, description := shape.description.withoutFeedEnd }
  else
    { shape with
      description :=
        (List.replicate (emptyLead shape.groups) []).foldl Text.addLine shape.description
      closedGroups := shape.closedGroups.map (List.map Row.reread)
      lastGroup := shape.lastGroup.map Row.reread }

theorem addLine_bracket {start : Structure} {line : Text} (bracket : line = ['['] ∨ line = [']']) :
    start.addLine line = .ok start := by
  rcases bracket with rfl | rfl <;> simp [addLine, startsRow]

/-- The last line of the groups is a row or a bracket. -/
theorem groupsLines_eq_concat {shape : Structure} (present : shape.rows ≠ []) :
    ∃ front last, shape.groupsLines = front ++ [last] ∧ last ≠ [] := by
  unfold groupsLines
  split
  · rename_i single
    have nonempty : shape.lastGroup ≠ [] := by simpa [rows, groups, single] using present
    obtain ⟨front, last, rows⟩ := (List.eq_nil_or_concat shape.lastGroup).resolve_left nonempty
    obtain ⟨start, whole⟩ := last.text_eq
    refine ⟨front.map Row.text, last.text, ?_, by simp [whole]⟩
    rw [groupLines, if_neg nonempty, rows, List.concat_eq_append, List.map_append,
      List.map_singleton]
  · exact ⟨_, [']'], rfl, by simp⟩

theorem getLast?_body {shape : Structure} (present : shape.rows ≠ []) :
    shape.body.getLast? ≠ some [] := by
  obtain ⟨front, last, lines, nonempty⟩ := groupsLines_eq_concat present
  rw [body, rowsLines, if_neg present, lines, ← List.append_assoc, List.getLast?_concat]
  simpa using nonempty

theorem foldlM_groupsLines {start shape : Structure} (readable : ∀ row ∈ shape.rows, row.Readable)
    (noClosed : start.closedGroups = []) (empty : start.lastGroup = []) :
    shape.groupsLines.foldlM addLine start =
      .ok { start with
        description := start.describeLead shape.groups
        closedGroups := shape.closedGroups.map (List.map Row.reread)
        lastGroup := shape.lastGroup.map Row.reread } := by
  have each : ∀ group ∈ shape.groups, ∀ row ∈ group, row.Readable :=
    fun group member row inside => readable row (List.mem_flatten_of_mem member inside)
  have groupsRead := @foldlM_groups start shape.closedGroups shape.lastGroup empty each
  unfold groupsLines
  split
  · rename_i single
    rw [groups, single] at each ⊢
    rw [foldlM_group empty (each shape.lastGroup (by simp))]
    simp [noClosed]
  · rw [List.cons_append, List.foldlM_cons, addLine_bracket (.inl rfl)]
    change List.foldlM addLine start _ = _
    rw [List.foldlM_append, groups, groupsRead]
    change List.foldlM addLine _ [[']']] = _
    rw [List.foldlM_cons, addLine_bracket (.inr rfl), noClosed]
    rfl

theorem foldlM_body {shape : Structure} (loaded : shape.Loaded)
    (readable : ∀ row ∈ shape.rows, row.Readable) :
    (withoutBlankEnd shape.body).foldlM addLine { label := shape.label } = .ok shape.reread := by
  by_cases noRows : shape.rows = []
  · rw [body, rowsLines, if_pos noRows, List.append_nil,
      foldlM_description rfl fun line member => loaded.described.usual_of_mem member,
      loaded.described.foldl_withoutBlankEnd, reread, if_pos noRows]
  · rw [withoutBlankEnd_eq_self (getLast?_body noRows), body, rowsLines, if_neg noRows,
      List.foldlM_append,
      foldlM_description rfl fun line member => (loaded.described.continues member).2,
      foldl_descriptionLines loaded.described.started]
    exact (foldlM_groupsLines readable rfl rfl).trans (congrArg Except.ok (if_neg noRows).symm)

/-- The rows of lines that are read are readable. -/
theorem readable_of_foldlM {start result : Structure} {lines : List Text}
    (read : lines.foldlM addLine start = .ok result) {row : Row} (member : row.text ∈ lines) :
    row.Readable := by
  induction lines generalizing start with
  | nil => exact absurd member List.not_mem_nil
  | cons line rest inductionHypothesis =>
      obtain ⟨next, added, continued⟩ := foldlM_cons_eq_ok_iff.mp read
      rcases List.mem_cons.mp member with rfl | later
      · rw [addLine, if_pos (startsRow_text row)] at added
        obtain ⟨again, made, -⟩ := map_eq_ok_iff.mp added
        exact (Row.readable_of_ok made).1
      · exact inductionHypothesis continued later

end Structure

end GedcomGrammar
