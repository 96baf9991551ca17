/-
This file proves that a text declares its elements block by block.
-/

import GedcomGrammar.Proofs.Keyed.Insertions
import GedcomGrammar.Proofs.Schema.Blocks

namespace GedcomGrammar

namespace Block

theorem cut_cons_of_isHeader {line : Text} (rest : List Text)
    (header : Element.isHeader line = true) :
    cut (line :: rest) = ([], ⟨line, (cut rest).1⟩ :: (cut rest).2) := by
  rw [cut, header]
  rfl

theorem cut_cons_of_not_isHeader {line : Text} (rest : List Text)
    (noHeader : Element.isHeader line = false) :
    cut (line :: rest) = (line :: (cut rest).1, (cut rest).2) := by
  rw [cut, noHeader]
  rfl

/-- No line is lost between the blocks. -/
theorem cut_lines (lines : List Text) :
    (cut lines).1 ++ (cut lines).2.flatMap Block.lines = lines := by
  induction lines with
  | nil => rfl
  | cons line rest inductionHypothesis =>
      cases header : Element.isHeader line with
      | true =>
          rw [cut_cons_of_isHeader rest header, List.nil_append, List.flatMap_cons, Block.lines,
            List.cons_append, inductionHypothesis]
      | false =>
          rw [cut_cons_of_not_isHeader rest header, List.cons_append, inductionHypothesis]

/-- Headers stand only at the start of a block. -/
theorem isHeader_cut (lines : List Text) :
    (∀ line ∈ (cut lines).1, Element.isHeader line = false) ∧
      ∀ block ∈ (cut lines).2, Element.isHeader block.header = true ∧
        ∀ line ∈ block.below, Element.isHeader line = false := by
  induction lines with
  | nil => exact ⟨fun _ member => absurd member List.not_mem_nil,
      fun _ member => absurd member List.not_mem_nil⟩
  | cons line rest inductionHypothesis =>
      obtain ⟨loose, blocks⟩ := inductionHypothesis
      cases header : Element.isHeader line with
      | true =>
          rw [cut_cons_of_isHeader rest header]
          exact ⟨fun _ member => absurd member List.not_mem_nil,
            List.forall_mem_cons.mpr ⟨⟨header, loose⟩, blocks⟩⟩
      | false =>
          rw [cut_cons_of_not_isHeader rest header]
          exact ⟨List.forall_mem_cons.mpr ⟨header, loose⟩, blocks⟩

/-- Lines that are cut have no line end and no line feed inside. -/
def Trimmed (lines : List Text) : Prop :=
  ∀ line ∈ lines, '\n' ∉ line ∧ line.withoutLineEnd = line

theorem trimmed_map {lines : List Text} (noFeed : ∀ line ∈ lines, '\n' ∉ line) :
    Trimmed (lines.map Text.withoutLineEnd) := by
  intro content member
  obtain ⟨line, inside, rfl⟩ := List.mem_map.mp member
  exact ⟨fun feed => noFeed line inside ((Text.prefix_trimEnd line).subset feed),
    Text.trimEnd_trimEnd line⟩

theorem proper_of_mem_cut {lines : List Text} (trimmed : Trimmed lines) {block : Block}
    (member : block ∈ (cut lines).2) : block.Proper := by
  obtain ⟨header, below⟩ := (isHeader_cut lines).2 block member
  have inside {line : Text} (part : line ∈ block.lines) : '\n' ∉ line ∧ line.withoutLineEnd = line :=
    trimmed line (by
      rw [← cut_lines lines]
      exact List.mem_append_right _ (List.mem_flatMap.mpr ⟨block, member, part⟩))
  obtain ⟨noFeed, noEnd⟩ := inside (List.mem_cons_self : block.header ∈ block.lines)
  refine ⟨⟨noFeed, noEnd, header⟩, fun line part => ?_⟩
  obtain ⟨noFeedBelow, noEndBelow⟩ := inside (List.mem_cons_of_mem block.header part)
  have continues := Continuation.of_withoutLineEnd noFeedBelow (by
    rw [noEndBelow]
    exact below line part)
  rwa [noEndBelow] at continues

end Block

namespace Schema

variable {schema : Schema}

theorem foldlM_withoutLineEnd (schema : Schema) (lines : List Text) :
    (lines.map Text.withoutLineEnd).foldlM readLine schema = lines.foldlM readLine schema := by
  rw [List.foldlM_map]
  have same : (fun held line => readLine held line.withoutLineEnd) = readLine := by
    funext held line
    rw [readLine, addLine_withoutLineEnd, readLine]
  rw [same]

/-- With no element open only blank lines are read before the first header. -/
theorem blank_of_foldlM (closed : schema.opened = none) {loose rest : List Text} {final : Schema}
    (trimmed : Block.Trimmed loose) (noHeader : ∀ line ∈ loose, Element.isHeader line = false)
    (read : (loose ++ rest).foldlM readLine schema = .ok final) : ∀ line ∈ loose, line = [] := by
  induction loose with
  | nil => exact fun _ member => absurd member List.not_mem_nil
  | cons line others inductionHypothesis =>
      rw [List.forall_mem_cons] at noHeader
      obtain ⟨-, noEnd⟩ := trimmed line List.mem_cons_self
      rw [List.cons_append, foldlM_cons_eq_ok_iff] at read
      obtain ⟨next, first, later⟩ := read
      have blank : line = [] := by
        by_contra content
        rw [readLine, addLine_of_closed (openElement?_of_closed closed) (noEnd.symm ▸ content)
          (noEnd.symm ▸ noHeader.1)] at first
        exact absurd first (by simp)
      have unchanged : schema = next := by
        rw [blank] at first
        exact (addBlank_of_closed closed).symm.trans (Except.ok.inj first)
      rw [← unchanged] at later
      have kept := inductionHypothesis (fun other member =>
        trimmed other (List.mem_cons_of_mem line member)) noHeader.2 later
      exact List.forall_mem_cons.mpr ⟨blank, kept⟩

theorem blank_cut_of_foldlM (closed : schema.opened = none) {lines : List Text} {final : Schema}
    (trimmed : Block.Trimmed lines) (read : lines.foldlM readLine schema = .ok final) :
    ∀ line ∈ (Block.cut lines).1, line = [] := by
  have whole := Block.cut_lines lines
  have trimmedLoose : Block.Trimmed (Block.cut lines).1 := fun line member =>
    trimmed line (whole ▸ List.mem_append_left _ member)
  rw [← whole] at read
  exact blank_of_foldlM closed trimmedLoose (Block.isHeader_cut lines).1 read

/-- Behind blank lines the blocks put their elements into the schema, whatever is open before. -/
theorem exists_foldlM_iff_blocks {lines : List Text} (trimmed : Block.Trimmed lines)
    (blank : ∀ line ∈ (Block.cut lines).1, line = []) {target : Schema} :
    (∃ final, lines.foldlM readLine schema = .ok final ∧ final.close = target) ↔
      ∃ elements,
        List.Forall₂ (fun block element => block.element = .ok element)
          (Block.cut lines).2 elements ∧
        elements.foldl insert schema.close = target := by
  have loose : (Block.cut lines).1 = List.replicate (Block.cut lines).1.length [] :=
    List.eq_replicate_of_mem blank
  obtain ⟨start, skipped, same⟩ := foldlM_blanks schema (Block.cut lines).1.length
  rw [← loose] at skipped
  have blocks : (∃ final, lines.foldlM readLine schema = .ok final ∧ final.close = target) ↔
      ∃ final, ((Block.cut lines).2.flatMap Block.lines).foldlM readLine start = .ok final ∧
        final.close = target := by
    conv_lhs => rw [← Block.cut_lines lines]
    simp only [foldlM_append_eq_ok_iff, skipped, Except.ok.injEq, exists_eq_left']
  rw [blocks, foldlM_blocks fun block member => Block.proper_of_mem_cut trimmed member, same]

/-- Every text adds the elements of its blocks, and has nothing but blank lines before them. -/
theorem readText_eq_ok_iff_blocks {target : Schema} {text : Text} :
    schema.readText text = .ok target ↔
      (∀ line ∈ (Block.ofText text).1, line = []) ∧ ∃ elements,
        List.Forall₂ (fun block element => block.element = .ok element)
          (Block.ofText text).2 elements ∧
        elements.foldl insert schema.close = target := by
  have trimmed : Block.Trimmed (text.lines.map Text.withoutLineEnd) :=
    Block.trimmed_map fun _ member => Text.notMem_of_mem_lines member
  rw [readText_eq_ok_iff_lines, ← foldlM_withoutLineEnd]
  constructor
  · intro run
    obtain ⟨read, lines, closed⟩ := run
    have blank : ∀ line ∈ (Block.ofText text).1, line = [] :=
      blank_cut_of_foldlM rfl trimmed lines
    exact ⟨blank, (@exists_foldlM_iff_blocks schema.close _ trimmed blank _).mp ⟨read, lines, closed⟩⟩
  · intro declared
    obtain ⟨blank, elements⟩ := declared
    exact (@exists_foldlM_iff_blocks schema.close _ trimmed blank _).mpr elements

/--
A closed schema has of several declarations of an element the last one,
at the place of the first one.
-/
structure Collects (schema : Schema) (elements : List Element) : Prop where
  distinct : (schema.elements.map Element.key).Nodup
  order : schema.elements.map Element.key = (elements.map Element.key).eraseDups
  latest : ∀ key, schema.find? key = Keyed.findLast? Element.key key elements
  depthLimit : schema.depthLimit = 32
  closed : schema.opened = none
  settled : schema.blanks = 0

theorem collects_iff {elements : List Element} :
    schema.Collects elements ↔ elements.foldl insert {} = schema := by
  have made : elements.foldl insert {} = { elements := Keyed.ofList Element.key elements } :=
    foldl_insert {} elements
  rw [made]
  constructor
  · intro collects
    have same : Keyed.ofList Element.key elements = schema.elements :=
      Keyed.eq_of_find? (Keyed.nodup_ofList _ _)
        ((Keyed.map_ofList _ _).trans collects.order.symm)
        fun key => (Keyed.find?_ofList _ _ _).trans (collects.latest key).symm
    obtain ⟨held, depthLimit, opened, blanks⟩ := schema
    simp only [mk.injEq]
    exact ⟨same, collects.depthLimit.symm, collects.closed.symm, collects.settled.symm⟩
  · intro same
    rw [← same]
    exact
      { distinct := Keyed.nodup_ofList _ _
        order := Keyed.map_ofList _ _
        latest := fun key => Keyed.find?_ofList _ key _
        depthLimit := rfl
        closed := rfl
        settled := rfl }

/--
A text is read exactly if only blank lines stand before its blocks and each block declares an
element by itself; the schema has the last declaration of each element at the place of the first.
-/
theorem ofText_eq_ok_iff_blocks {text : Text} :
    ofText text = .ok schema ↔
      (∀ line ∈ (Block.ofText text).1, line = []) ∧ ∃ elements,
        List.Forall₂ (fun block element => block.element = .ok element)
          (Block.ofText text).2 elements ∧
        schema.Collects elements := by
  have whole : ofText text = readText {} text := rfl
  rw [whole, readText_eq_ok_iff_blocks]
  simp only [collects_iff]
  rfl

end Schema

end GedcomGrammar
