/-
This file proves which items of a line are found again in its row.
-/

import GedcomGrammar.Proofs.Row.Marks

namespace GedcomGrammar.Row

/-- A single name is written as it is, and several names stand in brackets. -/
theorem Tags.text_of_splitOn {tags : Tags} {name : Text} (split : tags.toList = name.splitOn '|') :
    tags.text = if '|' ∈ name then '[' :: name ++ [']'] else name := by
  obtain ⟨first, others⟩ := tags
  have joined := Text.joinWith_splitOn '|' name
  rw [← split] at joined
  cases others with
  | nil =>
      have alone : first = name := by simpa [toList, Text.joinWith] using joined
      have plain : '|' ∉ first := by
        apply Text.notMem_of_mem_splitOn
        rw [← split]
        exact List.mem_cons_self
      rw [text, if_neg (alone ▸ plain), alone]
  | cons second rest =>
      have barred : '|' ∈ name := by
        rw [← joined, toList, Text.joinWith, List.intercalate_cons_cons]
        simp
      rw [text, if_pos barred, joined]

namespace Mark

theorem mem_items_iff {mark : Mark} {texts : List Text} {text : Text} :
    text ∈ mark.items texts ↔ text ∈ texts ∧ ofText text = mark := by
  simp [items]

/-- An item that is no tags is a substructure, a value or a pointer. -/
theorem filter_perm (texts : List Text) :
    (texts.filter fun text => ofText text ≠ .tags).Perm
      (substructure.items texts ++ (value.items texts ++ pointer.items texts)) := by
  induction texts with
  | nil => rfl
  | cons text rest inductionHypothesis =>
      cases mark : ofText text with
      | substructure => simpa [items, mark] using inductionHypothesis
      | value =>
          have moved := inductionHypothesis.cons text
          simpa [items, mark] using moved.trans List.perm_middle.symm
      | pointer =>
          have moved := inductionHypothesis.cons text
          rw [← List.append_assoc] at moved
          simpa [items, mark] using moved.trans List.perm_middle.symm
      | tags => simpa [items, mark] using inductionHypothesis

end Mark

/-- The marks of a kind are counted by what its rows have. -/
theorem Kind.count_of_ofMarks? {marks : List Mark} {kind : Kind}
    (made : ofMarks? marks = some kind) :
    marks.count .substructure = (if kind = .substructure then 1 else 0) ∧
      marks.count .value =
        (if kind = .newRecordWithValue ∨ kind = .primitiveValue then 1 else 0) ∧
      marks.count .pointer = if kind.has .xref ∨ kind = .pointerValue then 1 else 0 := by
  unfold ofMarks? at made
  split_ifs at made with doubled alone opening mixed bare mixed valued pointed <;>
    rw [Option.some.injEq] at made <;> rw [← made]
  · obtain ⟨mark, rfl⟩ := List.length_eq_one_iff.mp alone
    rw [List.mem_singleton] at doubled
    simp [← doubled, has]
  all_goals rw [List.count_eq_zero.mpr doubled]
  · have first := List.count_pos_iff.mpr (List.mem_of_mem_head? opening)
    have once : marks.count .pointer = 1 := by omega
    simp [has, once, bare]
  · have first := List.count_pos_iff.mpr (List.mem_of_mem_head? opening)
    have once : marks.count .pointer = 1 := by omega
    have valued : marks.count .value = 1 := by omega
    simp [has, once, valued]
  · have unpointed : marks.count .pointer = 0 := by omega
    simp [has, unpointed, valued]
  · have unvalued : marks.count .value = 0 := by omega
    simp [has, unvalued, pointed]
  · have unpointed : marks.count .pointer = 0 := by omega
    have unvalued : marks.count .value = 0 := by omega
    simp [has, unpointed, unvalued]

section Written

variable {texts : List Text}

/-- Kept items are written as substructures, values, pointers and the last tags. -/
theorem keptIn_perm (texts : List Text) :
    ((keptIn texts).map written).Perm
      ((Mark.substructure.items texts).map written ++
        ((Mark.value.items texts).map written ++ (Mark.pointer.items texts).map written) ++
          (Mark.tags.items texts).getLast?.toList.map written) := by
  have split := ((Mark.filter_perm texts).append_right
    (Mark.tags.items texts).getLast?.toList).map written
  simpa only [keptIn, List.map_append] using split

/-- The only item with a mark has that mark. -/
theorem Mark.exists_of_length_items {mark : Mark} (once : (mark.items texts).length = 1) :
    ∃ text, mark.items texts = [text] ∧ ofText text = mark := by
  obtain ⟨text, only⟩ := List.length_eq_one_iff.mp once
  have member : text ∈ mark.items texts := by
    rw [only]
    exact List.mem_cons_self
  exact ⟨text, only, (mem_items_iff.mp member).2⟩

theorem exists_substructure (once : (Mark.substructure.items texts).length = 1) :
    ∃ label, Mark.substructure.names texts = [label] ∧
      (Mark.substructure.items texts).map written = [valueText (valueText label)] := by
  obtain ⟨text, only, marked⟩ := Mark.exists_of_length_items once
  exact ⟨Mark.substructure.name text, by simp [Mark.names, only], by simp [only, written, marked]⟩

theorem exists_value (once : (Mark.value.items texts).length = 1) :
    ∃ name, Mark.value.names texts = [name] ∧
      (Mark.value.items texts).map written = [valueText name] := by
  obtain ⟨text, only, marked⟩ := Mark.exists_of_length_items once
  exact ⟨Mark.value.name text, by simp [Mark.names, only], by simp [only, written, marked]⟩

/-- The only pointer is written in the spelling that it has on the line. -/
theorem exists_pointer (once : (Mark.pointer.items texts).length = 1) :
    ∃ type, Mark.pointer.names texts = [type] ∧
      (Mark.pointer.items texts).map written = [pointerText (prefixedIn texts) type] := by
  obtain ⟨text, only, marked⟩ := Mark.exists_of_length_items once
  exact ⟨Mark.pointer.name text, by simp [Mark.names, only],
    by simp [only, written, marked, prefixedIn]⟩

/-- The last tags among the items are written as the tags of the row. -/
theorem map_written_tags {tags : Tags} (same : tags.toList = tagsIn texts) :
    (Mark.tags.items texts).getLast?.toList.map written = [tags.text] := by
  rcases List.eq_nil_or_concat (Mark.tags.items texts) with none | ⟨front, last, found⟩
  · rw [tagsIn, Mark.names, none] at same
    exact absurd same (List.cons_ne_nil _ _)
  · rw [List.concat_eq_append] at found
    have member : last ∈ Mark.tags.items texts := by
      rw [found]
      exact List.mem_append_right front List.mem_cons_self
    have marked := (Mark.mem_items_iff.mp member).2
    have split : tags.toList = (Mark.tags.name last).splitOn '|' := by
      simpa [tagsIn, Mark.names, found] using same
    rw [found, List.getLast?_append_cons, Tags.text_of_splitOn split]
    simp [written, marked]

end Written

/-- The items of a row are the kept items of its line, in the order that rows have. -/
theorem Gathers.items_perm {row : Row} {texts : List Text} (gathers : row.Gathers texts) :
    (row.body.items row.prefixed).Perm ((keptIn texts).map written) := by
  obtain ⟨level, body, occurrence, prefixed⟩ := row
  obtain ⟨made, xref, tags, value, spelled⟩ := gathers
  obtain ⟨substructures, values, pointers⟩ := Kind.count_of_ofMarks? made
  rw [← Mark.length_items] at substructures values pointers
  refine List.Perm.trans ?_ (keptIn_perm texts).symm
  dsimp only at xref value spelled ⊢
  rw [spelled]
  cases body with
  | noValue names =>
      rw [List.length_eq_zero_iff.mp substructures, List.length_eq_zero_iff.mp values,
        List.length_eq_zero_iff.mp pointers, map_written_tags (show names.toList = _ from tags)]
      exact .refl _
  | substructure label =>
      obtain ⟨found, named, items⟩ := exists_substructure substructures
      have untagged : Mark.tags.items texts = [] := by
        have none := tagsIn_eq_nil_iff.mp tags.symm
        rwa [← List.count_eq_zero, ← Mark.length_items, List.length_eq_zero_iff] at none
      have same : label = found := by
        simpa [Body.value?, Kind.valueIn, Row.kind, Body.kind, named] using value
      rw [same, items, List.length_eq_zero_iff.mp values, List.length_eq_zero_iff.mp pointers,
        untagged]
      exact .refl _
  | newRecord type names =>
      obtain ⟨found, named, items⟩ := exists_pointer pointers
      have same : type = found := by
        simpa [Body.xref?, Kind.xrefIn, Row.kind, Body.kind, Kind.has, named] using xref
      rw [same, List.length_eq_zero_iff.mp substructures, List.length_eq_zero_iff.mp values, items,
        map_written_tags (show names.toList = _ from tags)]
      exact .refl _
  | newRecordWithValue type names name =>
      obtain ⟨found, named, items⟩ := exists_pointer pointers
      obtain ⟨foundValue, namedValue, itemsValue⟩ := exists_value values
      have same : type = found := by
        simpa [Body.xref?, Kind.xrefIn, Row.kind, Body.kind, Kind.has, named] using xref
      have sameValue : name = foundValue := by
        simpa [Body.value?, Kind.valueIn, Row.kind, Body.kind, namedValue] using value
      rw [same, sameValue, List.length_eq_zero_iff.mp substructures, itemsValue, items,
        map_written_tags (show names.toList = _ from tags)]
      exact List.perm_append_singleton _ [_, _]
  | pointerValue names target =>
      obtain ⟨found, named, items⟩ := exists_pointer pointers
      have same : target = found := by
        simpa [Body.value?, Kind.valueIn, Row.kind, Body.kind, named] using value
      rw [same, List.length_eq_zero_iff.mp substructures, List.length_eq_zero_iff.mp values, items,
        map_written_tags (show names.toList = _ from tags)]
      exact .swap _ _ _
  | primitiveValue names name =>
      obtain ⟨found, named, items⟩ := exists_value values
      have same : name = found := by
        simpa [Body.value?, Kind.valueIn, Row.kind, Body.kind, named] using value
      rw [same, List.length_eq_zero_iff.mp substructures, items,
        List.length_eq_zero_iff.mp pointers, map_written_tags (show names.toList = _ from tags)]
      exact .swap _ _ _

/-- All items are kept exactly when there are no tags that later tags replace. -/
theorem length_keptIn_eq_iff {texts : List Text} :
    (keptIn texts).length = texts.length ↔ (Mark.tags.items texts).length ≤ 1 := by
  have parted := (List.filter_append_perm (fun text => decide (Mark.ofText text = .tags))
    texts).length_eq
  have last : (Mark.tags.items texts).getLast?.toList.length =
      min 1 (Mark.tags.items texts).length := by
    rcases List.eq_nil_or_concat (Mark.tags.items texts) with none | ⟨front, text, found⟩
    · simp [none]
    · simp [found]
  have tags : (texts.filter fun text => decide (Mark.ofText text = .tags)) =
      Mark.tags.items texts := rfl
  have others : (texts.filter fun text => !decide (Mark.ofText text = .tags)) =
      texts.filter fun text => decide (Mark.ofText text ≠ .tags) := by
    simp
  rw [List.length_append, tags, others] at parted
  rw [keptIn, List.length_append, last]
  omega

/--
A row has each item of its line again, except the tags that later tags replace.
So it has as many items as its line exactly if the line has its tags in one item.
-/
theorem items_kept_iff {line : Text} {row : Row} (read : ofLine line = .ok row) :
    ∃ first middle last, line.splitOn ' ' = first :: (middle ++ [last]) ∧
      row.text.splitOn ' ' =
        row.level.text :: (row.body.items row.prefixed ++ [row.occurrence.text]) ∧
      (row.body.items row.prefixed).Perm ((keptIn middle).map written) ∧
      ((row.body.items row.prefixed).length = middle.length ↔
        (Mark.tags.items middle).length ≤ 1) := by
  have long : ¬(line.splitOn ' ').length < 3 := by
    intro short
    rw [ofLine_of_short short] at read
    exact absurd read (by simp)
  obtain ⟨first, middle, last, nonempty, parts⟩ := exists_parts long
  have legible : row.LegibleIn Unspaced :=
    legibleIn_of_ofLine (fun _ member => Text.notMem_of_mem_splitOn member) read
  have judged := judged_ofItems line first last nonempty
  rw [← ofLine_of_splitOn nonempty parts, read] at judged
  cases judged with
  | row leveled counted gathers tagged =>
      have kept := gathers.items_perm
      refine ⟨first, middle, last, parts, splitOn_text legible, kept, ?_⟩
      rw [kept.length_eq, List.length_map]
      exact length_keptIn_eq_iff

/-- A record that is written with its tags before its value. -/
def note : Row where
  level := .root
  body := .newRecordWithValue "I".toList ⟨"A".toList, ["B".toList]⟩ "NAME".toList
  occurrence := ⟨1, .finite 1⟩
  prefixed := false

theorem items_kept_of_note :
    ofLine "0 @<I>@ <NAME> [A|B] \x7b1:1\x7d".toList = .ok note ∧
      (note.body.items note.prefixed).Perm
        ["<NAME>".toList, "@<I>@".toList, "[A|B]".toList] ∧
      (note.body.items note.prefixed).length = 3 := by
  have read : ofLine "0 @<I>@ <NAME> [A|B] \x7b1:1\x7d".toList = .ok note := by decide +kernel
  obtain ⟨first, middle, last, parts, -, kept, counted⟩ := items_kept_iff read
  have cut : "0 @<I>@ <NAME> [A|B] \x7b1:1\x7d".toList.splitOn ' ' =
      "0".toList :: (["@<I>@".toList, "<NAME>".toList, "[A|B]".toList] ++
        ["\x7b1:1\x7d".toList]) := by decide +kernel
  obtain ⟨-, inner⟩ := List.cons.inj (cut.symm.trans parts)
  obtain ⟨same, -⟩ := List.append_inj' inner rfl
  rw [← same] at kept counted
  have all : (Mark.tags.items
      ["@<I>@".toList, "<NAME>".toList, "[A|B]".toList]).length ≤ 1 := by decide
  exact ⟨read, kept.trans (by decide), counted.mpr all⟩

/-- Of two tags that stand apart the first is lost, and the line is not refused. -/
theorem second_tags_replace_first :
    ∃ row, ofLine "+1 A B \x7b0:1\x7d".toList = .ok row ∧
      row.text = "+1 B \x7b0:1\x7d".toList ∧
      (row.text.splitOn ' ').length ≠ ("+1 A B \x7b0:1\x7d".toList.splitOn ' ').length :=
  ⟨⟨.relative 1, .noValue ⟨"B".toList, []⟩, ⟨0, .finite 1⟩, true⟩, by decide +kernel,
    by decide +kernel, by decide +kernel⟩

end GedcomGrammar.Row
