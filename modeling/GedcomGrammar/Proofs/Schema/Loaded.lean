/-
This file proves what every schema that was read from a text has.
-/

import GedcomGrammar.Proofs.Element.Loaded
import GedcomGrammar.Proofs.Schema.Lines
import GedcomGrammar.Proofs.Text.Lines

namespace GedcomGrammar

namespace Element

/-- Only a structure can refuse a line. -/
theorem exists_addLine_of_kind {element : Element} (kind : element.kind ≠ .struct) (line : Text) :
    ∃ extended, element.addLine line = .ok extended := by
  cases element with
  | primitive content => exact ⟨_, rfl⟩
  | tag content => exact ⟨_, rfl⟩
  | struct content => exact absurd rfl kind

/-- Only a line that looks like a row is refused by an element. -/
theorem exists_addLine_of_not_startsRow (element : Element) {line : Text}
    (noRow : Structure.startsRow line = false) : ∃ extended, element.addLine line = .ok extended := by
  cases element with
  | primitive content => exact ⟨_, rfl⟩
  | tag content => exact ⟨_, rfl⟩
  | struct content =>
      rw [addLine, Structure.addLine, if_neg (ne_true_of_eq_false noRow)]
      split
      · exact ⟨_, rfl⟩
      · split
        · exact ⟨_, rfl⟩
        · split <;> exact ⟨_, rfl⟩

theorem exists_foldlM_of_not_startsRow (element : Element) {lines : List Text}
    (noRow : ∀ line ∈ lines, Structure.startsRow line = false) :
    ∃ extended, lines.foldlM addLine element = .ok extended := by
  induction lines generalizing element with
  | nil => exact ⟨element, rfl⟩
  | cons line rest inductionHypothesis =>
      rw [List.forall_mem_cons] at noRow
      obtain ⟨longer, added⟩ := element.exists_addLine_of_not_startsRow noRow.1
      obtain ⟨extended, read⟩ := inductionHypothesis longer noRow.2
      exact ⟨extended, foldlM_cons_eq_ok_iff.mpr ⟨longer, added, read⟩⟩

end Element

namespace Schema

/-- A schema that was read from lines has loaded elements with keys of their own. -/
structure Loaded (schema : Schema) : Prop where
  each : ∀ element ∈ schema.elements, element.Loaded
  distinct : (schema.elements.map Element.key).Nodup
  depth : schema.depthLimit = 32

theorem loaded_empty : Loaded {} :=
  ⟨by simp, List.nodup_nil, rfl⟩

theorem Loaded.insert {schema : Schema} {element : Element} (loaded : schema.Loaded)
    (added : element.Loaded) : (schema.insert element).Loaded where
  each other member := by
    rcases Keyed.mem_insert member with rfl | old
    · exact added
    · exact loaded.each other old
  distinct := Keyed.nodup_insert Element.key element loaded.distinct
  depth := loaded.depth

theorem mem_of_find? {schema : Schema} {key : Element.Key} {element : Element}
    (found : schema.find? key = some element) : element ∈ schema.elements :=
  List.mem_of_find?_eq_some found

theorem Loaded.extend {schema extended : Schema} {line : Text} (loaded : schema.Loaded)
    (continues : Continuation line) (added : schema.extend line = .ok extended) :
    extended.Loaded := by
  obtain ⟨key, element, longer, _, found, made, rfl⟩ := extend_eq_ok_iff.mp added
  exact loaded.insert ((loaded.each element (mem_of_find? found)).addLine continues made)

theorem Loaded.addBlank {schema : Schema} (loaded : schema.Loaded) : schema.addBlank.Loaded := by
  unfold Schema.addBlank
  split
  · exact ⟨loaded.each, loaded.distinct, loaded.depth⟩
  · exact loaded

theorem Loaded.settleBlanks {schema : Schema} (loaded : schema.Loaded) :
    schema.settleBlanks.Loaded := by
  refine settleBlanks_keeps loaded ?_ fun held kept => ⟨kept.each, kept.distinct, kept.depth⟩
  intro held kept
  rcases held.extendBlank_cases with unchanged | taken
  · rwa [unchanged]
  · exact kept.extend Continuation.nil taken

/-- Every line that is read keeps a schema loaded. -/
theorem Loaded.readLine {schema extended : Schema} {line : Text} (loaded : schema.Loaded)
    (noFeed : '\n' ∉ line) (read : schema.readLine line = .ok extended) : extended.Loaded := by
  have outcome := schema.outcome_addLine line
  rw [readLine_eq_ok_iff.mp read] at outcome
  cases outcome with
  | blank empty => exact loaded.addBlank
  | declared element header made =>
      have noFeedInContent : '\n' ∉ line.withoutLineEnd := fun member =>
        noFeed ((Text.prefix_trimEnd line).subset member)
      have inserted := loaded.insert (Element.loaded_ofHeader noFeedInContent made)
      exact ⟨inserted.each, inserted.distinct, inserted.depth⟩
  | extended longer present noHeader taken =>
      exact loaded.settleBlanks.extend (Continuation.of_withoutLineEnd noFeed noHeader) taken

@[simp] theorem close_addBlank (schema : Schema) : schema.addBlank.close = schema.close := by
  unfold addBlank
  split <;> rfl

theorem foldlM_blanks (schema : Schema) (count : Nat) :
    ∃ final, (List.replicate count []).foldlM Schema.readLine schema = .ok final ∧
      final.close = schema.close := by
  induction count generalizing schema with
  | zero => exact ⟨schema, rfl, rfl⟩
  | succ count inductionHypothesis =>
      obtain ⟨final, read, closed⟩ := inductionHypothesis schema.addBlank
      exact ⟨final, read, closed.trans schema.close_addBlank⟩

/-- A blank line more at the end of a text changes nothing. -/
theorem readText_eq_ok_iff_splitOn {schema target : Schema} {text : Text} :
    schema.readText text = .ok target ↔
      ∃ read, (text.splitOn '\n').foldlM Schema.readLine schema.close = .ok read ∧
        read.close = target := by
  obtain ⟨count, split⟩ := Text.lines_append_blanks text
  rw [readText_eq_ok_iff_lines, split]
  constructor
  · intro run
    obtain ⟨read, lines, closed⟩ := run
    obtain ⟨final, blanks, same⟩ := foldlM_blanks read count
    exact ⟨final, foldlM_append_eq_ok_iff.mpr ⟨read, lines, blanks⟩, same.trans closed⟩
  · intro run
    obtain ⟨final, lines, closed⟩ := run
    obtain ⟨read, front, back⟩ := foldlM_append_eq_ok_iff.mp lines
    obtain ⟨again, blanks, same⟩ := foldlM_blanks read count
    have final' : again = final := Except.ok.inj (blanks.symm.trans back)
    exact ⟨read, front, by rw [← same, final', closed]⟩

/-- The schema of a text is the one that its lines leave, with no element open. -/
theorem ofText_eq_ok_iff {text : Text} {schema : Schema} :
    ofText text = .ok schema ↔
      ∃ read, (text.splitOn '\n').foldlM Schema.readLine {} = .ok read ∧ read.close = schema :=
  @readText_eq_ok_iff_splitOn {} schema text

theorem loaded_ofText {text : Text} {schema : Schema} (read : ofText text = .ok schema) :
    schema.Loaded ∧ schema.opened = none ∧ schema.blanks = 0 := by
  obtain ⟨final, lines, rfl⟩ := ofText_eq_ok_iff.mp read
  have loaded : final.Loaded := foldlM_keeps loaded_empty
    (fun _ _ _ member before step => before.readLine (Text.notMem_of_mem_splitOn member) step)
    lines
  exact ⟨⟨loaded.each, loaded.distinct, loaded.depth⟩, rfl, rfl⟩

end Schema

end GedcomGrammar
