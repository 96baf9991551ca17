/-
This file proves which structures come back with their text, and which come back whole.
-/

import GedcomGrammar.Proofs.Element.Rereading

namespace GedcomGrammar

namespace Structure

/--
An empty first group would lengthen a description that stands in front of it.
Rows must keep their own text.
-/
def Settled (shape : Structure) : Prop :=
  (2 ≤ shape.groups.length → shape.rows ≠ [] →
    shape.description = [] ∨ shape.groups.head? ≠ some []) ∧
  ∀ row ∈ shape.rows, row.Settled

theorem filter_groupLines (group : List Row) :
    (groupLines group).filter startsRow = group.map Row.text := by
  unfold groupLines
  split
  · rename_i empty
    rw [empty]
    rfl
  · rw [List.filter_eq_self]
    intro line member
    obtain ⟨row, _, rfl⟩ := List.mem_map.mp member
    exact startsRow_text row

theorem filter_intercalate (groups : List (List Row)) :
    ([['|']].intercalate (groups.map groupLines)).filter startsRow =
      groups.flatten.map Row.text := by
  induction groups with
  | nil => rfl
  | cons group rest inductionHypothesis =>
      by_cases last : rest = []
      · simp [last, filter_groupLines]
      · rw [List.map_cons, List.intercalate_cons_of_ne_nil (by simpa using last),
          List.filter_append, List.filter_append, inductionHypothesis, filter_groupLines,
          List.flatten_cons, List.map_append]
        simp [startsRow]

/-- The rows are the lines that look like rows. -/
theorem filter_body {shape : Structure} (loaded : shape.Loaded) :
    shape.body.filter startsRow = shape.rows.map Row.text := by
  have described : (descriptionLines shape.description).filter startsRow = [] := by
    rw [List.filter_eq_nil_iff]
    intro line member
    rw [(loaded.described.continues member).2.1]
    exact Bool.false_ne_true
  rw [body, List.filter_append, described, List.nil_append, rowsLines]
  split
  · rename_i noRows
    rw [noRows]
    rfl
  · unfold groupsLines
    split
    · rename_i single
      simp [filter_groupLines, rows, groups, single]
    · rw [List.filter_append, List.filter_cons_of_neg (by simp [startsRow]), filter_intercalate]
      simp [startsRow, rows]

theorem emptyLead_eq_zero_iff {group : List Row} {groups : List (List Row)} :
    emptyLead (group :: groups) = 0 ↔ group ≠ [] := by
  by_cases empty : group = []
  · simp [empty]
  · simp [empty, emptyLead_cons_of_ne_nil empty]

theorem groupText_map {group : List Row} (same : ∀ row ∈ group, row.reread.text = row.text) :
    groupText (group.map Row.reread) = groupText group := by
  rw [groupText, groupText, List.map_map]
  exact congrArg _ (List.map_congr_left same)

/-- The same shape with every row as it rereads. -/
def rereadRows (shape : Structure) : Structure :=
  { shape with
    closedGroups := shape.closedGroups.map (List.map Row.reread)
    lastGroup := shape.lastGroup.map Row.reread }

theorem groups_rereadRows (shape : Structure) :
    shape.rereadRows.groups = shape.groups.map (List.map Row.reread) := by
  simp [rereadRows, groups]

theorem rows_rereadRows (shape : Structure) :
    shape.rereadRows.rows = shape.rows.map Row.reread := by
  rw [rows, groups_rereadRows, rows, List.map_flatten]

theorem groupsText_rereadRows {shape : Structure}
    (same : ∀ row ∈ shape.rows, row.reread.text = row.text) :
    shape.rereadRows.groupsText = shape.groupsText := by
  have each (group : List Row) (member : group ∈ shape.groups) :
      groupText (group.map Row.reread) = groupText group :=
    groupText_map fun row inside => same row (List.mem_flatten_of_mem member inside)
  have whole : shape.rereadRows.groups.map groupText = shape.groups.map groupText := by
    rw [groups_rereadRows, List.map_map]
    exact List.map_congr_left each
  unfold groupsText
  cases closed : shape.closedGroups with
  | nil =>
      simp only [rereadRows, closed, List.map_nil]
      exact each shape.lastGroup (by simp [groups])
  | cons first rest =>
      have closedAgain : shape.rereadRows.closedGroups =
          first.map Row.reread :: rest.map (List.map Row.reread) := by
        simp [rereadRows, closed]
      rw [closedAgain, whole]

theorem reread_of_rows {shape : Structure} (present : shape.rows ≠ []) :
    shape.reread = { shape.rereadRows with
      description :=
        (List.replicate (emptyLead shape.groups) []).foldl Text.addLine shape.description } :=
  if_neg present

theorem rows_reread {shape : Structure} (present : shape.rows ≠ []) :
    shape.reread.rows = shape.rows.map Row.reread := by
  rw [reread_of_rows present]
  exact rows_rereadRows shape

theorem text_eq_of_rows {shape : Structure} (present : shape.rows ≠ []) :
    shape.text =
      withDescription [shape.headerText] shape.description ++ '\n' :: shape.groupsText := by
  rw [text, parts, if_neg present, Text.joinWith_concat _ (by simp), List.append_assoc,
    List.singleton_append]
  rfl

theorem text_reread_iff_of_rows {shape : Structure} (present : shape.rows ≠ [])
    (same : ∀ row ∈ shape.rows, row.reread.text = row.text) :
    shape.reread.text = shape.text ↔
      shape.description = [] ∨ emptyLead shape.groups = 0 := by
  have groups : shape.reread.groupsText = shape.groupsText := by
    rw [reread_of_rows present]
    exact groupsText_rereadRows same
  have presentAgain : shape.reread.rows ≠ [] := by
    rw [rows_reread present, ne_eq, List.map_eq_nil_iff]
    exact present
  have header : shape.reread.headerText = shape.headerText := by
    rw [reread_of_rows present]
    rfl
  rw [text_eq_of_rows presentAgain, text_eq_of_rows present, groups, header,
    List.append_cancel_right_eq, withDescription_inj (by simp), reread_of_rows present]
  exact Text.foldl_addLine_blanks_eq_self_iff

theorem text_eq_of_noRows {shape : Structure} (noRows : shape.rows = []) :
    shape.text = withDescription [shape.headerText] shape.description := by
  rw [text, parts, if_pos noRows, List.append_nil]
  rfl

theorem getLast?_text_iff {shape : Structure} (loaded : shape.Loaded)
    (noRows : shape.rows = []) :
    shape.text.getLast? ≠ some '\n' ↔
      shape.description.withoutFeedEnd = shape.description := by
  rw [text_eq_of_noRows noRows]
  exact @getLast?_withDescription_iff [] _ _ (by simp [headerText]) loaded.header.noFeed

theorem reread_of_noRows {shape : Structure} (noRows : shape.rows = []) :
    shape.reread =
      { label := shape.label, description := shape.description.withoutFeedEnd } :=
  if_pos noRows

theorem text_reread_iff_of_noRows {shape : Structure} (loaded : shape.Loaded)
    (noRows : shape.rows = []) :
    shape.reread.text = shape.text ↔ shape.text.getLast? ≠ some '\n' := by
  rw [getLast?_text_iff loaded noRows, text_eq_of_noRows noRows, reread_of_noRows noRows,
    text_eq_of_noRows rfl]
  exact withDescription_inj (by simp)

/-- No rule about the first group applies to a single group with rows. -/
theorem emptyLead_groups_iff {shape : Structure} (present : shape.rows ≠ []) :
    emptyLead shape.groups = 0 ↔ (2 ≤ shape.groups.length → shape.groups.head? ≠ some []) := by
  cases closed : shape.closedGroups with
  | nil =>
      have nonempty : shape.lastGroup ≠ [] := by simpa [rows, groups, closed] using present
      simp [groups, closed, emptyLead_eq_zero_iff, nonempty]
  | cons first rest =>
      simp [groups, closed, emptyLead_eq_zero_iff]

/-- Exactly the settled structures read back, and with the same text. -/
theorem settled_iff {shape : Structure} (loaded : shape.Loaded) (present : shape.rows ≠ []) :
    ((∀ row ∈ shape.rows, row.Readable) ∧ shape.reread.text = shape.text) ↔ shape.Settled := by
  constructor
  · intro stays
    obtain ⟨readable, sameText⟩ := stays
    have loadedAgain : shape.reread.Loaded :=
      (@Element.Loaded.reread (.struct shape) _ loaded
        (Element.reread_struct loaded readable)).1
    have bodies : shape.reread.body = shape.body :=
      @Element.Loaded.body_eq_of_text (.struct shape) (.struct shape.reread) loaded loadedAgain
        sameText
    have rowTexts : (shape.rows.map Row.reread).map Row.text = shape.rows.map Row.text := by
      rw [← filter_body loaded, ← bodies, filter_body loadedAgain, rows_reread present]
    have same : ∀ row ∈ shape.rows, row.reread.text = row.text := by
      rw [List.map_map] at rowTexts
      exact List.map_inj_left.mp rowTexts
    constructor
    · intro several _
      rcases (text_reread_iff_of_rows present same).mp sameText with empty | lead
      · exact .inl empty
      · exact .inr ((emptyLead_groups_iff present).mp lead several)
    · intro row member
      exact (Row.settled_iff (loaded.rows row member)).mp
        ⟨row.reread, readable row member, same row member⟩
  · intro firstSettled
    obtain ⟨first, settled⟩ := firstSettled
    have each : ∀ row ∈ shape.rows, row.Readable ∧ row.reread.text = row.text := by
      intro row member
      obtain ⟨again, read, same⟩ := (Row.settled_iff (loaded.rows row member)).mpr
        (settled row member)
      obtain ⟨readable, rfl⟩ := Row.readable_of_ok read
      exact ⟨readable, same⟩
    refine ⟨fun row member => (each row member).1, ?_⟩
    rw [text_reread_iff_of_rows present fun row member => (each row member).2,
      emptyLead_groups_iff present]
    by_cases empty : shape.description = []
    · exact .inl empty
    · exact .inr fun several => (first several present).resolve_left empty

/-- Several groups are written only with a row, and an empty first one not below a description. -/
def Faithful (shape : Structure) : Prop :=
  (2 ≤ shape.groups.length →
    shape.rows ≠ [] ∧ (shape.description = [] ∨ shape.groups.head? ≠ some [])) ∧
  ∀ row ∈ shape.rows, ¬row.Ambiguous

theorem reread_eq_self_of_noRows_iff {shape : Structure} (loaded : shape.Loaded)
    (noRows : shape.rows = []) :
    shape.reread = shape ↔ shape.text.getLast? ≠ some '\n' ∧ shape.Faithful := by
  have rowless : ∀ row ∈ shape.rows, ¬row.Ambiguous := by
    rw [noRows]
    exact fun _ member => absurd member List.not_mem_nil
  have last : shape.lastGroup = [] := by
    have empty := noRows
    rw [rows, groups, List.flatten_append, List.append_eq_nil_iff] at empty
    simpa using empty.2
  rw [getLast?_text_iff loaded noRows, reread_of_noRows noRows]
  constructor
  · intro same
    have single : shape.closedGroups = [] := (congrArg closedGroups same).symm
    refine ⟨congrArg description same, fun several => ?_, rowless⟩
    rw [groups, single] at several
    exact absurd several (by simp)
  · intro allKept
    obtain ⟨kept, several, _⟩ := allKept
    have single : shape.closedGroups = [] := by
      by_contra closed
      have positive := List.length_pos_iff.mpr closed
      exact (several (by rw [groups, List.length_append, List.length_singleton]; omega)).1 noRows
    rw [kept]
    obtain ⟨label, description, closedGroups, lastGroup⟩ := shape
    rw [show closedGroups = [] from single, show lastGroup = [] from last]

theorem reread_eq_self_of_rows_iff {shape : Structure} (loaded : shape.Loaded)
    (present : shape.rows ≠ []) :
    ((∀ row ∈ shape.rows, row.Readable) ∧ shape.reread = shape) ↔ shape.Faithful := by
  constructor
  · intro stays
    obtain ⟨readable, same⟩ := stays
    have settled := (settled_iff loaded present).mp ⟨readable, congrArg text same⟩
    refine ⟨fun several => ⟨present, settled.1 several present⟩, fun row member => ?_⟩
    have kept : shape.rows.map Row.reread = shape.rows :=
      (rows_reread present).symm.trans (congrArg rows same)
    have whole : row.reread = row :=
      List.map_inj_left.mp (kept.trans (List.map_id shape.rows).symm) row member
    rw [← Row.ofLine_text_eq_ok_iff (loaded.rows row member)]
    exact (readable row member).trans (congrArg Except.ok whole)
  · intro faithful
    obtain ⟨several, clear⟩ := faithful
    have each : ∀ row ∈ shape.rows, row.Readable ∧ row.reread = row := fun row member =>
      Row.readable_of_ok
        ((Row.ofLine_text_eq_ok_iff (loaded.rows row member)).mpr (clear row member))
    refine ⟨fun row member => (each row member).1, ?_⟩
    have group {part : List Row} (member : part ∈ shape.groups) : part.map Row.reread = part :=
      (List.map_congr_left fun row inside =>
        (each row (List.mem_flatten_of_mem member inside)).2).trans (List.map_id part)
    have closed : shape.closedGroups.map (List.map Row.reread) = shape.closedGroups :=
      (List.map_congr_left fun part member => group (by simp [groups, member])).trans
        (List.map_id shape.closedGroups)
    have last : shape.lastGroup.map Row.reread = shape.lastGroup := group (by simp [groups])
    have described : (List.replicate (emptyLead shape.groups) []).foldl Text.addLine
        shape.description = shape.description := by
      rw [Text.foldl_addLine_blanks_eq_self_iff, emptyLead_groups_iff present]
      by_cases empty : shape.description = []
      · exact .inl empty
      · exact .inr fun many => (several many).2.resolve_left empty
    rw [reread_of_rows present, rereadRows, closed, last, described]

end Structure

end GedcomGrammar
