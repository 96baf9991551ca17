/-
This file proves what the text of a schema keeps when it is read again.
-/

import GedcomGrammar.Proofs.Element.Settled
import GedcomGrammar.Proofs.Schema.Blocks

namespace GedcomGrammar.Schema

/-- A blank line stands between the lines of neighbouring elements. -/
theorem splitOn_text {schema : Schema} (each : ∀ element ∈ schema.elements, element.Loaded)
    (nonempty : schema.elements ≠ []) :
    schema.text.splitOn '\n' = [[]].intercalate (schema.elements.map Element.lines) := by
  have separated : schema.text.splitOn '\n' =
      [[]].intercalate ((schema.elements.map Element.text).map fun text => text.splitOn '\n') :=
    Text.splitOn_joinWith_between (by decide : '\n' ∉ []) (by simpa using nonempty)
  rw [separated, List.map_map]
  exact congrArg _ (List.map_congr_left fun element member => (each element member).splitOn_text)

theorem keys_of_reread {elements again : List Element}
    (reread : List.Forall₂ (fun element other => element.reread = .ok other) elements again) :
    again.map Element.key = elements.map Element.key := by
  induction reread with
  | nil => rfl
  | cons read _ inductionHypothesis =>
      rw [List.map_cons, List.map_cons, inductionHypothesis, Element.key_foldlM read,
        Element.key_bare]

/-- The text of a loaded schema reads as its elements reread, in their order. -/
theorem ofText_text_eq_ok_iff {schema target : Schema} (loaded : schema.Loaded) :
    ofText schema.text = .ok target ↔ ∃ again,
      List.Forall₂ (fun element other => element.reread = .ok other) schema.elements again ∧
        { elements := again } = target := by
  rw [ofText_eq_ok_iff]
  by_cases empty : schema.elements = []
  · have start : schema.text.splitOn '\n' = [[]] := by rw [text, empty]; rfl
    rw [start, empty]
    constructor
    · intro run
      obtain ⟨read, lines, rfl⟩ := run
      exact ⟨[], .nil, by rw [← Except.ok.inj lines]; rfl⟩
    · intro rereads
      obtain ⟨again, none, rfl⟩ := rereads
      cases none
      exact ⟨{}, rfl, rfl⟩
  · rw [splitOn_text loaded.each empty, foldlM_intercalate loaded.each]
    have collected {again : List Element}
        (reread : List.Forall₂ (fun element other => element.reread = .ok other)
          schema.elements again) :
        again.foldl insert (close {}) = { elements := again } := by
      have distinct : (again.map Element.key).Nodup := by
        rw [keys_of_reread reread]
        exact loaded.distinct
      rw [foldl_insert]
      exact congrArg (fun elements => ({ elements } : Schema)) (Keyed.ofList_of_nodup distinct)
    constructor
    · intro rereads
      obtain ⟨again, reread, rfl⟩ := rereads
      exact ⟨again, reread, (collected reread).symm⟩
    · intro rereads
      obtain ⟨again, reread, rfl⟩ := rereads
      exact ⟨again, reread, collected reread⟩

theorem intercalate_lines {elements : List Element} (nonempty : elements ≠ [])
    (each : ∀ element ∈ elements, element.Loaded) : ∃ header rest,
      [[]].intercalate (elements.map Element.lines) = header :: rest ∧
        Element.isHeader header = true := by
  obtain ⟨first, others, rfl⟩ := List.exists_cons_of_ne_nil nonempty
  have marked := (each first List.mem_cons_self).header.marked
  by_cases last : others = []
  · exact ⟨first.headerText, first.body, by simp [last, Element.lines], marked⟩
  · rw [List.map_cons, List.intercalate_cons_of_ne_nil (by simpa using last)]
    exact ⟨first.headerText, _, rfl, marked⟩

/-- No header is met before the blank line behind an element. -/
theorem takeWhile_block {element : Element} (loaded : element.Loaded) {header : Text}
    (marked : Element.isHeader header = true) (rest : List Text) :
    (element.body ++ [[]] ++ header :: rest).takeWhile (fun line => !Element.isHeader line) =
      element.body ++ [[]] := by
  apply Text.takeWhile_append_cons
  · intro line member
    rw [List.mem_append, List.mem_singleton] at member
    rcases member with inside | rfl
    · rw [(loaded.continues inside).isHeader]
      rfl
    · rfl
  · rw [marked]
    rfl

/-- Headers tell where the lines of an element end. -/
theorem lines_of_block {left right : Element} (loadedLeft : left.Loaded)
    (loadedRight : right.Loaded) {headerLeft headerRight : Text} {restLeft restRight : List Text}
    (markedLeft : Element.isHeader headerLeft = true)
    (markedRight : Element.isHeader headerRight = true)
    (same : left.lines ++ [[]] ++ headerLeft :: restLeft =
      right.lines ++ [[]] ++ headerRight :: restRight) :
    left.lines = right.lines ∧ headerLeft :: restLeft = headerRight :: restRight := by
  rw [Element.lines, Element.lines, List.cons_append, List.cons_append, List.cons_append,
    List.cons_append, List.cons.injEq] at same
  obtain ⟨header, below⟩ := same
  have bodies := congrArg (List.takeWhile fun line => !Element.isHeader line) below
  rw [takeWhile_block loadedLeft markedLeft, takeWhile_block loadedRight markedRight,
    List.append_cancel_right_eq] at bodies
  rw [bodies, List.append_cancel_left_eq] at below
  exact ⟨by rw [Element.lines, Element.lines, header, bodies], below⟩

/-- Equal lines of elements that stand a blank line apart come from equal lines of each. -/
theorem map_lines_of_intercalate {left right : List Element} (lengths : left.length = right.length)
    (eachLeft : ∀ element ∈ left, element.Loaded) (eachRight : ∀ element ∈ right, element.Loaded)
    (same : [[]].intercalate (left.map Element.lines) =
      [[]].intercalate (right.map Element.lines)) :
    left.map Element.lines = right.map Element.lines := by
  induction left generalizing right with
  | nil =>
      rw [List.length_nil, eq_comm, List.length_eq_zero_iff] at lengths
      rw [lengths]
  | cons first rest inductionHypothesis =>
      obtain ⟨second, others, rfl⟩ := List.exists_cons_of_length_eq_add_one lengths.symm
      rw [List.length_cons, List.length_cons, Nat.add_right_cancel_iff] at lengths
      by_cases last : rest = []
      · have lastRight : others = [] := by
          rw [last, List.length_nil, eq_comm, List.length_eq_zero_iff] at lengths
          exact lengths
        simpa [last, lastRight] using same
      · have lastRight : others ≠ [] := fun none => last (by simpa [none] using lengths)
        have restLeft := fun element member => eachLeft element (List.mem_cons_of_mem first member)
        have restRight := fun element member =>
          eachRight element (List.mem_cons_of_mem second member)
        obtain ⟨headerLeft, tailLeft, linesLeft, markedLeft⟩ := intercalate_lines last restLeft
        obtain ⟨headerRight, tailRight, linesRight, markedRight⟩ :=
          intercalate_lines lastRight restRight
        rw [List.map_cons, List.map_cons, List.intercalate_cons_of_ne_nil (by simpa using last),
          List.intercalate_cons_of_ne_nil (by simpa using lastRight), linesLeft, linesRight]
          at same
        obtain ⟨blocks, tails⟩ := lines_of_block (eachLeft first List.mem_cons_self)
          (eachRight second List.mem_cons_self) markedLeft markedRight same
        rw [← linesLeft, ← linesRight] at tails
        rw [List.map_cons, List.map_cons, blocks,
          inductionHypothesis lengths restLeft restRight tails]

/-- Schemas with equally many elements have equal texts only if all their elements have. -/
theorem map_text_of_text {left right : Schema}
    (lengths : left.elements.length = right.elements.length)
    (eachLeft : ∀ element ∈ left.elements, element.Loaded)
    (eachRight : ∀ element ∈ right.elements, element.Loaded) (same : left.text = right.text) :
    left.elements.map Element.text = right.elements.map Element.text := by
  by_cases empty : left.elements = []
  · have emptyRight : right.elements = [] := by
      rw [empty, List.length_nil, eq_comm, List.length_eq_zero_iff] at lengths
      exact lengths
    rw [empty, emptyRight]
  · have nonemptyRight : right.elements ≠ [] := fun none => empty (by simpa [none] using lengths)
    have split := congrArg (List.splitOn '\n') same
    rw [splitOn_text eachLeft empty, splitOn_text eachRight nonemptyRight] at split
    have lines := map_lines_of_intercalate lengths eachLeft eachRight split
    have joined {elements : List Element} (each : ∀ element ∈ elements, element.Loaded) :
        (elements.map Element.lines).map (Text.joinWith ['\n']) = elements.map Element.text := by
      rw [List.map_map]
      refine List.map_congr_left fun element member => ?_
      rw [Function.comp_apply, Element.lines, ← (each element member).splitOn_text,
        Text.joinWith_splitOn]
    rw [← joined eachLeft, ← joined eachRight, lines]

/-- Elements that reread make a loaded list again. -/
theorem loaded_of_reread {elements again : List Element}
    (each : ∀ element ∈ elements, element.Loaded)
    (reread : List.Forall₂ (fun element other => element.reread = .ok other) elements again) :
    ∀ other ∈ again, other.Loaded := by
  induction reread with
  | nil => exact fun _ member => absurd member List.not_mem_nil
  | cons read _ inductionHypothesis =>
      intro other member
      rcases List.mem_cons.mp member with rfl | later
      · exact ((each _ List.mem_cons_self).reread read).1
      · have tail element (inside : element ∈ _) := each element (List.mem_cons_of_mem _ inside)
        exact inductionHypothesis tail other later

/-- Elements keep their texts, one by one, exactly if each reads back with its own text. -/
theorem reread_same_text_iff {elements : List Element} :
    (∃ again, List.Forall₂ (fun element other => element.reread = .ok other) elements again ∧
        again.map Element.text = elements.map Element.text) ↔
      ∀ element ∈ elements, ∃ other, element.reread = .ok other ∧ other.text = element.text := by
  induction elements with
  | nil => exact ⟨fun _ _ member => absurd member List.not_mem_nil, fun _ => ⟨[], .nil, rfl⟩⟩
  | cons first rest inductionHypothesis =>
      rw [List.forall_mem_cons, ← inductionHypothesis]
      constructor
      · intro rereads
        obtain ⟨again, reread, same⟩ := rereads
        obtain ⟨other, others, read, later, rfl⟩ := List.forall₂_cons_left_iff.mp reread
        rw [List.map_cons, List.map_cons, List.cons.injEq] at same
        exact ⟨⟨other, read, same.1⟩, others, later, same.2⟩
      · intro each
        obtain ⟨⟨other, read, sameFirst⟩, others, later, sameRest⟩ := each
        refine ⟨other :: others, .cons read later, ?_⟩
        rw [List.map_cons, List.map_cons, sameFirst, sameRest]

/--
The text of a schema that was read is read again and stays the same exactly if
every element keeps its text.
-/
theorem canonicalText_text_iff {source : Text} {schema : Schema}
    (read : ofText source = .ok schema) :
    canonicalText schema.text = .ok schema.text ↔
      ∀ element ∈ schema.elements, element.Settled := by
  have loaded := (loaded_ofText read).1
  have settled : (∀ element ∈ schema.elements, element.Settled) ↔
      ∀ element ∈ schema.elements, ∃ other,
        element.reread = .ok other ∧ other.text = element.text :=
    forall₂_congr fun element member => (Element.settled_iff (loaded.each element member)).symm
  rw [settled, ← reread_same_text_iff, canonicalText, map_eq_ok_iff]
  constructor
  · intro canonical
    obtain ⟨target, again, same⟩ := canonical
    obtain ⟨others, reread, rfl⟩ := (ofText_text_eq_ok_iff loaded).mp again
    exact ⟨others, reread, map_text_of_text reread.length_eq.symm
      (loaded_of_reread loaded.each reread) loaded.each same⟩
  · intro rereads
    obtain ⟨others, reread, same⟩ := rereads
    refine ⟨{ elements := others }, (ofText_text_eq_ok_iff loaded).mpr ⟨others, reread, rfl⟩, ?_⟩
    exact congrArg (Text.joinWith ['\n', '\n']) same

/-- The blank line between description and alternatives is printed below both. -/
theorem canonicalText_not_fixed :
    canonicalText "L:= \x7bSize=1\x7d\nA\n\n[X]".toList =
        .ok "L:= \x7bSize=1\x7d\n[X]\nA\n".toList ∧
      canonicalText "L:= \x7bSize=1\x7d\n[X]\nA\n".toList =
        .ok "L:= \x7bSize=1\x7d\n[X]\nA".toList := by
  constructor <;> decide +kernel

/-- A grammar with elements of every kind. -/
def smallGrammar : Schema where
  elements :=
    [.primitive
        { label := "SEX_VALUE".toList, sizeMin := 1, sizeMax := 7
          description := "A code.".toList
          terms := some [⟨"M".toList, "Male".toList⟩, ⟨"F".toList, "Female".toList⟩]
          alternatives := .ofText "M|F".toList },
      .tag { code := "SEX".toList, label := "SEX".toList, description := "A\n\ntag.".toList },
      .struct
        { label := "PERSON".toList, closedGroups := [[
            { level := .relative 0, body := .noValue ⟨"SEX".toList, []⟩
              occurrence := ⟨0, .finite 1⟩ }]]
          lastGroup := [
            { level := .relative 1, body := .substructure "NOTE".toList
              occurrence := ⟨0, .unlimited⟩ }] }]

theorem canonicalText_smallGrammar :
    ofText smallGrammar.text = .ok smallGrammar ∧
      ∀ element ∈ smallGrammar.elements, element.Settled := by
  have read : ofText smallGrammar.text = .ok smallGrammar := by decide +kernel
  refine ⟨read, (canonicalText_text_iff read).mp ?_⟩
  rw [canonicalText, read]
  rfl

theorem mem_primitives {schema : Schema} {primitive : Primitive} :
    primitive ∈ schema.primitives ↔ .primitive primitive ∈ schema.elements := by
  rw [primitives, List.mem_filterMap]
  constructor
  · intro listed
    obtain ⟨element, member, same⟩ := listed
    cases element with
    | primitive content => exact Option.some.inj same ▸ member
    | tag content => exact absurd same (by simp)
    | struct content => exact absurd same (by simp)
  · intro member
    exact ⟨_, member, rfl⟩

theorem mem_structures {schema : Schema} {shape : Structure} :
    shape ∈ schema.structures ↔ .struct shape ∈ schema.elements := by
  rw [structures, List.mem_filterMap]
  constructor
  · intro listed
    obtain ⟨element, member, same⟩ := listed
    cases element with
    | primitive content => exact absurd same (by simp)
    | tag content => exact absurd same (by simp)
    | struct content => exact Option.some.inj same ▸ member
  · intro member
    exact ⟨_, member, rfl⟩

/-- The text of a schema shows everything that the schema has. -/
structure Faithful (schema : Schema) : Prop where
  noFeedEnd : ∀ element ∈ schema.elements, element.text.getLast? ≠ some '\n'
  terms : ∀ primitive ∈ schema.primitives, primitive.terms ≠ some []
  names : ∀ primitive ∈ schema.primitives, ∀ terms, primitive.terms = some terms →
    ∀ term ∈ terms, ¬[' ', '='] <:+ term.name
  groups : ∀ shape ∈ schema.structures, 2 ≤ shape.groups.length →
    shape.rows ≠ [] ∧ (shape.description = [] ∨ shape.groups.head? ≠ some [])
  rows : ∀ shape ∈ schema.structures, ∀ row ∈ shape.rows, ¬row.Ambiguous

theorem faithful_iff {schema : Schema} :
    schema.Faithful ↔ ∀ element ∈ schema.elements, element.Faithful := by
  constructor
  · intro faithful element member
    refine ⟨faithful.noFeedEnd element member, ?_⟩
    cases element with
    | primitive content =>
        have listed := mem_primitives.mpr member
        exact ⟨faithful.terms content listed, faithful.names content listed⟩
    | tag content => trivial
    | struct content =>
        have listed := mem_structures.mpr member
        exact ⟨faithful.groups content listed, faithful.rows content listed⟩
  · intro each
    exact
      { noFeedEnd := fun element member => (each element member).1
        terms := fun _ listed => (each _ (mem_primitives.mp listed)).2.1
        names := fun _ listed => (each _ (mem_primitives.mp listed)).2.2
        groups := fun _ listed => (each _ (mem_structures.mp listed)).2.1
        rows := fun _ listed => (each _ (mem_structures.mp listed)).2.2 }

/-- The text of a schema that was read gives it back exactly if it shows everything. -/
theorem ofText_text_iff {source : Text} {schema : Schema} (read : ofText source = .ok schema) :
    ofText schema.text = .ok schema ↔ schema.Faithful := by
  obtain ⟨loaded, closed, settled⟩ := loaded_ofText read
  have whole : schema = { elements := schema.elements } := by
    obtain ⟨elements, depthLimit, opened, blanks⟩ := schema
    simp only [mk.injEq, true_and]
    exact ⟨loaded.depth, closed, settled⟩
  have each : (∀ element ∈ schema.elements, element.Faithful) ↔
      ∀ element ∈ schema.elements, element.reread = .ok element :=
    forall₂_congr fun element member =>
      (Element.reread_eq_ok_self_iff (loaded.each element member)).symm
  have pairs : List.Forall₂ (fun element other => element.reread = .ok other) schema.elements
      schema.elements ↔ ∀ element ∈ schema.elements, element.reread = .ok element :=
    List.forall₂_same
  rw [faithful_iff, each, ← pairs, ofText_text_eq_ok_iff loaded]
  constructor
  · intro rereads
    obtain ⟨again, reread, same⟩ := rereads
    have elements : again = schema.elements := congrArg Schema.elements same
    exact elements ▸ reread
  · intro reread
    exact ⟨schema.elements, reread, whole.symm⟩

theorem faithful_smallGrammar :
    ofText smallGrammar.text = .ok smallGrammar ∧ smallGrammar.Faithful := by
  have read : ofText smallGrammar.text = .ok smallGrammar := by decide +kernel
  exact ⟨read, (ofText_text_iff read).mp read⟩

end GedcomGrammar.Schema
