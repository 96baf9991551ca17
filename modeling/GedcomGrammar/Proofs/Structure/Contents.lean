/-
This file proves what a structure holds after any lines that it takes.
-/

import GedcomGrammar.Proofs.Structure.Rereading

namespace GedcomGrammar

namespace Structure

theorem isText_iff {line : Text} : isText line = true ↔ IsDescription line := by
  simp [isText, IsDescription]

/-- A row is never mistaken for a bar. -/
theorem ne_bar_of_startsRow {line : Text} (starts : startsRow line = true) : line ≠ ['|'] := by
  rintro rfl
  exact absurd starts (by decide)

theorem count_bars_concat (lines : List Text) {line : Text} (noBar : line ≠ ['|']) :
    (lines ++ [line]).count ['|'] = lines.count ['|'] := by
  have lone : [line].count ['|'] = 0 := List.count_eq_zero.mpr (by simpa using noBar.symm)
  rw [List.count_append, lone, Nat.add_zero]

/-- A bar opens a group without rows. -/
theorem groupsOf_concat_bar {lines : List Text} {groups : List (List Row)}
    (made : groupsOf lines = .ok groups) :
    groupsOf (lines ++ [['|']]) = .ok (groups ++ [[]]) := by
  rw [groupsOf, List.splitOn_append_cons_self, List.splitOn_nil, mapM_concat_eq_ok_iff]
  exact ⟨groups, [], made, rfl, rfl⟩

/-- A row goes to the end of the last group. -/
theorem groupsOf_concat_row {lines : List Text} {line : Text} {closed : List (List Row)}
    {last : List Row} {row : Row} (made : groupsOf lines = .ok (closed ++ [last]))
    (starts : startsRow line = true) (read : Row.ofLine line = .ok row) :
    groupsOf (lines ++ [line]) = .ok (closed ++ [last ++ [row]]) := by
  obtain ⟨parts, part, split, splitMore⟩ :=
    Text.exists_splitOn_concat (ne_bar_of_startsRow starts) lines
  rw [groupsOf, split, mapM_concat_eq_ok_iff] at made
  obtain ⟨front, final, madeFront, madeFinal, same⟩ := made
  obtain ⟨rfl, rfl⟩ := List.append_singleton_inj.mp same
  have filtered : (part ++ [line]).filter startsRow = part.filter startsRow ++ [line] := by
    simp [starts]
  rw [groupsOf, splitMore, mapM_concat_eq_ok_iff]
  refine ⟨closed, last ++ [row], madeFront, ?_, rfl⟩
  rw [filtered, mapM_concat_eq_ok_iff]
  exact ⟨last, row, madeFinal, read, rfl⟩

/-- A line of any other sort leaves the groups. -/
theorem groupsOf_concat_other (lines : List Text) {line : Text} (noRow : startsRow line = false)
    (noBar : line ≠ ['|']) : groupsOf (lines ++ [line]) = groupsOf lines := by
  obtain ⟨parts, part, split, splitMore⟩ := Text.exists_splitOn_concat noBar lines
  have filtered : (part ++ [line]).filter startsRow = part.filter startsRow := by simp [noRow]
  rw [groupsOf, groupsOf, split, splitMore, List.mapM_append, List.mapM_append, List.mapM_cons,
    List.mapM_cons, filtered]

theorem toldLines_cons (line : Text) (rest : List Text) :
    toldLines (line :: rest) =
      if startsRow line then (line :: rest).filter fun line => !line.isEmpty
      else line :: toldLines rest := by
  cases starts : startsRow line <;> simp [toldLines, starts]

/-- Every line tells something, but for the blank ones below a row. -/
theorem toldLines_concat (lines : List Text) (line : Text) :
    toldLines (lines ++ [line]) =
      if line = [] ∧ lines.any startsRow then toldLines lines else toldLines lines ++ [line] := by
  induction lines with
  | nil =>
      have content : startsRow line = true → line ≠ [] := by
        rintro starts rfl
        exact absurd starts (by decide)
      cases starts : startsRow line with
      | true => simp [toldLines, starts, content starts]
      | false => simp [toldLines, starts]
  | cons first rest inductionHypothesis =>
      rw [List.cons_append, toldLines_cons, toldLines_cons]
      cases starts : startsRow first with
      | true =>
          rw [if_pos rfl, if_pos rfl, ← List.cons_append, List.filter_append]
          by_cases blank : line = [] <;> simp [starts, blank]
      | false =>
          rw [if_neg Bool.false_ne_true, if_neg Bool.false_ne_true, inductionHypothesis,
            List.any_cons, starts, Bool.false_or]
          split <;> rfl

/-- A description takes its lines, but for the blank ones below a row. -/
theorem descriptionOf_concat (lines : List Text) (line : Text) :
    descriptionOf (lines ++ [line]) =
      if isText line ∧ ¬(line = [] ∧ lines.any startsRow) then (descriptionOf lines).addLine line
      else descriptionOf lines := by
  rw [descriptionOf, toldLines_concat, descriptionOf]
  by_cases silent : line = [] ∧ lines.any startsRow
  · rw [if_pos silent, if_neg (fun told => told.2 silent)]
  · rw [if_neg silent, List.filter_append]
    cases text : isText line with
    | true =>
        have taken : [line].filter isText = [line] := by simp [text]
        rw [taken, Text.paragraph_concat, if_pos ⟨rfl, silent⟩]
    | false => simp [text]

namespace Contents

variable {name : Text} {lines : List Text} {line : Text} {shape longer : Structure}

theorem rows_eq_nil_iff (contents : Contents name lines shape) :
    shape.rows = [] ↔ lines.any startsRow = false := by
  obtain ⟨-, toRow⟩ := exists_of_mapM_eq_ok contents.rows
  have noLine : lines.any startsRow = false ↔ lines.filter startsRow = [] := by
    simp [List.filter_eq_nil_iff]
  rw [noLine]
  constructor
  · intro noRow
    rw [noRow] at toRow
    refine List.eq_nil_iff_forall_not_mem.mpr fun line member => ?_
    obtain ⟨row, inside, -⟩ := toRow line member
    exact absurd inside List.not_mem_nil
  · intro none
    have made := contents.rows
    rw [none] at made
    exact mapM_nil_eq_ok_iff.mp made

theorem addRow (contents : Contents name lines shape) {row : Row}
    (starts : startsRow line = true) (read : Row.ofLine line = .ok row) :
    Contents name (lines ++ [line]) (shape.addRow row) where
  label := contents.label
  count := by
    rw [count_bars_concat lines (ne_bar_of_startsRow starts), ← contents.count]
    simp [Structure.groups, Structure.addRow]
  groups := groupsOf_concat_row contents.groups starts read
  rows := by
    have filtered : (lines ++ [line]).filter startsRow = lines.filter startsRow ++ [line] := by
      simp [starts]
    rw [filtered, mapM_concat_eq_ok_iff]
    exact ⟨shape.rows, row, contents.rows, read, shape.rows_addRow row⟩
  description := by
    have noText : ¬isText line = true := by simp [isText, starts]
    rw [descriptionOf_concat, if_neg fun told => noText told.1]
    exact contents.description

theorem addGroup (contents : Contents name lines shape) :
    Contents name (lines ++ [['|']]) shape.addGroup where
  label := contents.label
  count := by
    rw [List.count_append, List.count_singleton_self, ← contents.count]
    simp [Structure.groups, Structure.addGroup]
  groups := groupsOf_concat_bar contents.groups
  rows := by
    have filtered : (lines ++ [['|']]).filter startsRow = lines.filter startsRow := by
      simp [startsRow]
    rw [filtered, rows_addGroup]
    exact contents.rows
  description := by
    rw [descriptionOf_concat, if_neg fun told => absurd told.1 (by decide)]
    exact contents.description

/-- A line that is neither a row nor a bar changes nothing but the description. -/
theorem describe (contents : Contents name lines shape) (noRow : startsRow line = false)
    (noBar : line ≠ ['|']) :
    Contents name (lines ++ [line])
      { shape with description := descriptionOf (lines ++ [line]) } where
  label := contents.label
  count := by
    rw [count_bars_concat lines noBar]
    exact contents.count
  groups := (groupsOf_concat_other lines noRow noBar).trans contents.groups
  rows := by
    have filtered : (lines ++ [line]).filter startsRow = lines.filter startsRow := by
      simp [noRow]
    rw [filtered]
    exact contents.rows
  description := rfl

/-- A line that is neither a row nor a bar and tells nothing changes nothing. -/
theorem ignore (contents : Contents name lines shape) (noRow : startsRow line = false)
    (noBar : line ≠ ['|']) (untold : descriptionOf (lines ++ [line]) = descriptionOf lines) :
    Contents name (lines ++ [line]) shape := by
  have described := contents.describe noRow noBar
  rw [untold, ← contents.description] at described
  exact described

/-- One more line leaves what all lines together leave. -/
theorem addLine (contents : Contents name lines shape) (added : shape.addLine line = .ok longer) :
    Contents name (lines ++ [line]) longer := by
  cases taken_of_addLine added with
  | row row starts read => exact contents.addRow starts read
  | bar separates =>
      rw [separates]
      exact contents.addGroup
  | blank empty begun =>
      have silent : line = [] ∧ lines.any startsRow = true :=
        ⟨empty, by simpa using mt contents.rows_eq_nil_iff.mpr begun⟩
      refine contents.ignore (by rw [empty]; rfl) (by rw [empty]; decide) ?_
      rw [descriptionOf_concat, if_neg fun told => told.2 silent]
  | bracket encloses =>
      have noText : isText line = false := by rcases encloses with rfl | rfl <;> decide
      have noRow : startsRow line = false := by rcases encloses with rfl | rfl <;> decide
      have noBar : line ≠ ['|'] := by rcases encloses with rfl | rfl <;> decide
      refine contents.ignore noRow noBar ?_
      rw [descriptionOf_concat, if_neg fun told => absurd told.1 (by simp [noText])]
  | described usual above =>
      have noRow : startsRow line = false := usual.1
      have noBar : line ≠ ['|'] := usual.2.1
      have text : isText line = true := isText_iff.mpr usual
      have told : ¬(line = [] ∧ lines.any startsRow = true) := fun silent =>
        absurd (contents.rows_eq_nil_iff.mp (above silent.1)) (by simp [silent.2])
      have described := contents.describe noRow noBar
      rw [descriptionOf_concat, if_pos ⟨text, told⟩, ← contents.description] at described
      exact described

end Contents

/-- A structure without any line below its header. -/
theorem contents_bare (name : Text) : Contents name [] { label := name } :=
  ⟨rfl, rfl, rfl, rfl, rfl⟩

/-- A line that is taken in place changes the structure, and a refused one leaves it. -/
theorem run_takeLine (shape : Structure) (line : Text) :
    (takeLine line).run.run shape =
      match shape.addLine line with
      | .ok longer => (.ok (), longer)
      | .error error => (.error error, shape) := by
  have look (next : Structure → ExceptT RowError (StateM Structure) Unit) :
      (get >>= next).run.run shape = (next shape).run.run shape := rfl
  unfold takeLine addLine
  split
  · cases Row.ofLine line with
    | error error => rfl
    | ok row => rfl
  · split
    · rfl
    · rw [look]
      split
      · rfl
      · by_cases encloses : line = ['['] ∨ line = [']']
        · rw [if_pos encloses, if_neg (by rwa [← not_or, not_not])]
          rfl
        · rw [if_neg encloses, if_pos (not_or.mp encloses)]
          rfl

/-- A structure holds what all the lines that it has taken tell together. -/
theorem contents_foldlM {name : Text} {lines : List Text} {shape : Structure}
    (taken : lines.foldlM addLine { label := name } = .ok shape) : Contents name lines shape := by
  induction lines using List.reverseRecOn generalizing shape with
  | nil => exact Except.ok.inj taken ▸ contents_bare name
  | append_singleton front line inductionHypothesis =>
      obtain ⟨shorter, before, added⟩ := foldlM_concat_eq_ok_iff.mp taken
      exact (inductionHypothesis before).addLine added

/--
A structure that takes lines one after another has the rows between two bars in one group, and
describes itself by the other lines, but for the blank ones below a row.
A line that it refuses next leaves it as it is.
-/
theorem contents_of_taken {name : Text} {lines : List Text} {shape : Structure}
    (taken : lines.foldlM addLine { label := name } = .ok shape) :
    Contents name lines shape ∧
      ∀ line, (takeLine line).run.run shape =
        match shape.addLine line with
        | .ok longer => (.ok (), longer)
        | .error error => (.error error, shape) :=
  ⟨contents_foldlM taken, run_takeLine shape⟩

/-- A bar in front of all rows, text below a row, and blank lines above and below the first row. -/
def familyLines : List Text :=
  ["", "A family.", "", "[", "|", "n @<XREF:FAM>@ FAM \x7b1:1\x7d", "", "Two partners.",
    "+1 HUSB @<XREF:INDI>@ \x7b0:1\x7d", "|", "]", "+1 WIFE @<XREF:INDI>@ \x7b0:1\x7d"].map
      String.toList

def family : Structure where
  label := "FAM_RECORD".toList
  description := "A family.\n\nTwo partners.".toList
  closedGroups :=
    [[],
      [{ level := .relative 0, body := .newRecord "FAM".toList ⟨"FAM".toList, []⟩,
         occurrence := ⟨1, .finite 1⟩ },
       { level := .relative 1, body := .pointerValue ⟨"HUSB".toList, []⟩ "INDI".toList,
         occurrence := ⟨0, .finite 1⟩ }]]
  lastGroup :=
    [{ level := .relative 1, body := .pointerValue ⟨"WIFE".toList, []⟩ "INDI".toList,
       occurrence := ⟨0, .finite 1⟩ }]

theorem contents_of_familyLines :
    familyLines.foldlM addLine { label := "FAM_RECORD".toList } = .ok family ∧
      Contents "FAM_RECORD".toList familyLines family ∧
        ∀ line, (takeLine line).run.run family =
          match family.addLine line with
          | .ok longer => (.ok (), longer)
          | .error error => (.error error, family) := by
  have taken : familyLines.foldlM addLine { label := "FAM_RECORD".toList } = .ok family := by
    decide +kernel
  exact ⟨taken, contents_of_taken taken⟩

end Structure

end GedcomGrammar
