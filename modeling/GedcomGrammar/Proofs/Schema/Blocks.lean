/-
This file proves what the lines of a block add to a schema.
-/

import GedcomGrammar.Block
import GedcomGrammar.Proofs.Element.Rereading
import GedcomGrammar.Proofs.Schema.Loaded

namespace GedcomGrammar

namespace Element

theorem key_foldlM {element extended : Element} {lines : List Text}
    (read : lines.foldlM addLine element = .ok extended) : extended.key = element.key := by
  rw [← key_bare extended, bare_foldlM read, key_bare]

theorem key_addLine {element extended : Element} {line : Text}
    (added : element.addLine line = .ok extended) : extended.key = element.key := by
  rw [← key_bare extended, bare_addLine added, key_bare]

/-- The lines of a written element. -/
def lines (element : Element) : List Text :=
  element.headerText :: element.body

/-- The block of a written element, with the blank line that stands behind it. -/
def block (element : Element) : Block :=
  ⟨element.headerText, element.body ++ [[]]⟩

end Element

namespace Block

variable {block : Block}

/-- A block has one header, at its start. -/
structure Proper (block : Block) : Prop where
  header : Header block.header
  continues : ∀ line ∈ block.below, Continuation line

theorem element_eq_ok_iff {element : Element} :
    block.element = .ok element ↔ ∃ bare,
      Element.ofHeader (Element.headerKind block.header) block.header = .ok bare ∧
        (withoutBlankEnd block.below).foldlM Element.addLine bare = .ok element := by
  have content : block.content = withoutBlankEnd block.below := rfl
  rw [Block.element, content]
  cases Element.ofHeader (Element.headerKind block.header) block.header with
  | error error => simp
  | ok bare =>
      simp only [Except.ok.injEq, exists_eq_left']
      cases (withoutBlankEnd block.below).foldlM Element.addLine bare with
      | error error => simp
      | ok element => simp

end Block

namespace Element

theorem Loaded.proper_block {element : Element} (loaded : element.Loaded) :
    element.block.Proper where
  header := loaded.header
  continues line member := by
    rcases List.mem_append.mp member with written | blank
    · exact loaded.continues written
    · rw [List.mem_singleton.mp blank]
      exact Continuation.nil

/-- The block of a written element declares what the element rereads as. -/
theorem Loaded.element_block_iff {element again : Element} (loaded : element.Loaded) :
    element.block.element = .ok again ↔ element.reread = .ok again := by
  have header : ofHeader (headerKind element.block.header) element.block.header =
      .ok element.bare := loaded.ofHeader_headerText
  have below : withoutBlankEnd element.block.below = withoutBlankEnd element.body :=
    List.rdropWhile_concat_pos _ _ _ rfl
  rw [Block.element_eq_ok_iff, header, below]
  simp only [Except.ok.injEq, exists_eq_left']
  rfl

/-- Written elements that stand a blank line apart are blocks, but for the last blank line. -/
theorem intercalate_lines_concat {elements : List Element} (nonempty : elements ≠ []) :
    [[]].intercalate (elements.map lines) ++ [[]] = (elements.map block).flatMap Block.lines := by
  induction elements with
  | nil => exact absurd rfl nonempty
  | cons element rest inductionHypothesis =>
      have whole : element.block.lines = element.lines ++ [[]] := rfl
      by_cases last : rest = []
      · simp [last, whole]
      · rw [List.map_cons, List.intercalate_cons_of_ne_nil (by simpa using last), List.append_assoc,
          inductionHypothesis last, List.map_cons, List.flatMap_cons, whole]

end Element

namespace Schema

variable {schema : Schema} {element : Element}

/-- The element takes the next line. -/
structure Open (schema : Schema) (element : Element) : Prop where
  opened : schema.opened = some element.key
  found : schema.find? element.key = some element

theorem Open.insert (opened : schema.Open element) {extended : Element}
    (same : extended.key = element.key) : (schema.insert extended).Open extended where
  opened := by rw [same]; exact opened.opened
  found := Keyed.find?_insert_self Element.key extended schema.elements

theorem Open.insert_self (opened : schema.Open element) : schema.insert element = schema := by
  rw [Schema.insert, Keyed.insert_of_find? opened.found]

theorem insert_insert {first second : Element} (same : second.key = first.key) :
    (schema.insert first).insert second = schema.insert second := by
  rw [insert, insert, insert, Keyed.insert_insert same]

/-- The schema with so many blank lines waiting. -/
def withBlanks (schema : Schema) (count : Nat) : Schema :=
  { schema with blanks := count }

theorem Open.withBlanks (opened : schema.Open element) (count : Nat) :
    (schema.withBlanks count).Open element :=
  ⟨opened.opened, opened.found⟩

theorem Open.addBlank (opened : schema.Open element) :
    schema.addBlank = schema.withBlanks (schema.blanks + 1) := by
  have waits : schema.opened.isSome = true := by rw [opened.opened]; rfl
  rw [Schema.addBlank, if_pos waits]
  rfl

theorem insert_withBlanks_insert {first second : Element} (same : second.key = first.key)
    (count : Nat) : ((schema.insert first).withBlanks count).insert second =
      (schema.insert second).withBlanks count :=
  congrArg (Schema.withBlanks · count) (insert_insert same)

theorem Open.extend_eq (opened : schema.Open element) (line : Text) :
    schema.extend line =
      match element.addLine line with
      | .error error => .error (.row error)
      | .ok extended => .ok (schema.insert extended) := by
  have found : schema.opened.bind schema.find? = some element := by
    rw [opened.opened, Option.bind_some, opened.found]
  cases added : element.addLine line with
  | error error => simp only [Schema.extend, found, added]
  | ok extended => simp only [Schema.extend, found, added]

theorem Open.extend (opened : schema.Open element) (line : Text) {final : Schema} :
    schema.extend line = .ok final ↔
      ∃ extended, element.addLine line = .ok extended ∧ schema.insert extended = final := by
  rw [extend_eq_ok_iff]
  constructor
  · intro taken
    obtain ⟨key, other, extended, isOpen, found, added, same⟩ := taken
    cases isOpen.symm.trans opened.opened
    cases found.symm.trans opened.found
    exact ⟨extended, added, same⟩
  · intro longer
    obtain ⟨extended, added, same⟩ := longer
    exact ⟨element.key, element, extended, opened.opened, opened.found, added, same⟩

/-- The blank lines that were waiting go to the open element. -/
theorem Open.settleBlanks (opened : schema.Open element) :
    ∃ extended, (List.replicate schema.blanks []).foldlM Element.addLine element = .ok extended ∧
      schema.settleBlanks = (schema.insert extended).withBlanks 0 := by
  have settled (count : Nat) : ∃ extended,
      (List.replicate count []).foldlM Element.addLine element = .ok extended ∧
        count.repeat extendBlank schema = schema.insert extended := by
    induction count with
    | zero => exact ⟨element, rfl, opened.insert_self.symm⟩
    | succ count inductionHypothesis =>
        obtain ⟨extended, read, repeated⟩ := inductionHypothesis
        obtain ⟨longer, added⟩ := @Element.exists_addLine_of_not_startsRow extended [] rfl
        have reopened := opened.insert (Element.key_foldlM read)
        have taken : (schema.insert extended).extend [] = .ok (schema.insert longer) :=
          (reopened.extend []).mpr ⟨longer, added, insert_insert (Element.key_addLine added)⟩
        refine ⟨longer, ?_, ?_⟩
        · rw [List.replicate_succ', foldlM_concat_eq_ok_iff]
          exact ⟨extended, read, added⟩
        · rw [Nat.repeat, repeated, extendBlank, taken]
  obtain ⟨extended, read, repeated⟩ := settled schema.blanks
  exact ⟨extended, read, congrArg (Schema.withBlanks · 0) repeated⟩

/-- A line with content goes to the open element behind the blank lines that were waiting. -/
theorem Open.readLine (opened : schema.Open element) {line : Text} (continues : Continuation line)
    (content : line ≠ []) {final : Schema} :
    schema.readLine line = .ok final ↔ ∃ extended,
      (List.replicate schema.blanks [] ++ [line]).foldlM Element.addLine element = .ok extended ∧
        (schema.insert extended).withBlanks 0 = final := by
  obtain ⟨settled, blanks, state⟩ := opened.settleBlanks
  have reopened := (opened.insert (Element.key_foldlM blanks)).withBlanks 0
  have added : schema.addLine line = schema.addContinuation line := by
    have noEnd := continues.noEnd
    rw [addLine_of_not_isHeader (by rwa [noEnd]) (by rw [noEnd]; exact continues.isHeader), noEnd]
  have taken : schema.readLine line = .ok final ↔
      ((schema.insert settled).withBlanks 0).extend line = .ok final := by
    rw [Schema.readLine, added, addContinuation, state]
    cases ((schema.insert settled).withBlanks 0).extend line <;> simp
  rw [taken, reopened.extend]
  constructor
  · intro longest
    obtain ⟨extended, longer, rfl⟩ := longest
    refine ⟨extended, foldlM_concat_eq_ok_iff.mpr ⟨settled, blanks, longer⟩, ?_⟩
    exact (insert_withBlanks_insert (Element.key_addLine longer) 0).symm
  · intro lengthened
    obtain ⟨extended, read, rfl⟩ := lengthened
    obtain ⟨again, front, longer⟩ := foldlM_concat_eq_ok_iff.mp read
    rw [Except.ok.inj (front.symm.trans blanks)] at longer
    exact ⟨extended, longer, insert_withBlanks_insert (Element.key_addLine longer) 0⟩

/-- While an element is extended, a blank line waits. -/
theorem Open.readLine_nil (opened : schema.Open element) {extended : Element}
    (same : extended.key = element.key) (count : Nat) :
    ((schema.insert extended).withBlanks count).readLine [] =
      .ok ((schema.insert extended).withBlanks (count + 1)) :=
  congrArg Except.ok ((opened.insert same).withBlanks count).addBlank

/-- While an element is extended, a line with content goes behind the blank lines that wait. -/
theorem Open.readLine_extended (opened : schema.Open element) {extended : Element}
    (same : extended.key = element.key) (count : Nat) {line : Text}
    (continues : Continuation line) (content : line ≠ []) {final : Schema} :
    ((schema.insert extended).withBlanks count).readLine line = .ok final ↔ ∃ longer,
      (List.replicate count [] ++ [line]).foldlM Element.addLine extended = .ok longer ∧
        (schema.insert longer).withBlanks 0 = final := by
  rw [((opened.insert same).withBlanks count).readLine continues content]
  refine exists_congr fun longer => and_congr_right fun read => ?_
  have state : (((schema.insert extended).withBlanks count).insert longer).withBlanks 0 =
      (schema.insert longer).withBlanks 0 := by
    rw [insert_withBlanks_insert (Element.key_foldlM read)]
    rfl
  rw [state]

theorem length_withoutBlankEnd_le (lines : List Text) :
    (withoutBlankEnd lines).length ≤ lines.length :=
  (List.rdropWhile_prefix _ lines).length_le

/-- Only blank lines are missing from the lines without their blank end. -/
theorem withoutBlankEnd_append_blanks (lines : List Text) :
    withoutBlankEnd lines ++
      List.replicate (lines.length - (withoutBlankEnd lines).length) [] = lines := by
  have whole : withoutBlankEnd lines ++ lines.rtakeWhile List.isEmpty = lines :=
    List.rdropWhile_append_rtakeWhile
  have blanks : lines.rtakeWhile List.isEmpty =
      List.replicate (lines.rtakeWhile List.isEmpty).length [] :=
    List.eq_replicate_of_mem fun line member =>
      List.isEmpty_iff.mp (List.mem_rtakeWhile_imp member)
  have count : lines.length - (withoutBlankEnd lines).length =
      (lines.rtakeWhile List.isEmpty).length := by
    have lengths := congrArg List.length whole
    rw [List.length_append] at lengths
    omega
  rw [count, ← blanks, whole]

/-- A blank line behind some lines belongs to their blank end. -/
theorem length_blankEnd_concat_nil (lines : List Text) :
    (lines ++ [[]]).length - (withoutBlankEnd lines).length =
      lines.length - (withoutBlankEnd lines).length + 1 := by
  have bound := length_withoutBlankEnd_le lines
  rw [List.length_append, List.length_singleton]
  omega

/-- Lines below a header have gone to its element, but for the blank end, which waits. -/
def Below (schema : Schema) (element : Element) (lines : List Text) (final : Schema) : Prop :=
  ∃ extended, (withoutBlankEnd lines).foldlM Element.addLine element = .ok extended ∧
    (schema.insert extended).withBlanks (lines.length - (withoutBlankEnd lines).length) = final

theorem Open.below_nil_iff (opened : schema.Open element) (settled : schema.blanks = 0)
    {final : Schema} : schema.Below element [] final ↔ schema = final := by
  have start : (schema.insert element).withBlanks 0 = schema := by
    rw [opened.insert_self, Schema.withBlanks, ← settled]
  constructor
  · intro below
    obtain ⟨extended, read, rfl⟩ := below
    rw [← Except.ok.inj read]
    exact start.symm
  · rintro rfl
    exact ⟨element, rfl, start⟩

/-- A blank line lengthens the blank end. -/
theorem Open.below_concat_nil_iff (opened : schema.Open element) {lines : List Text}
    {final : Schema} :
    schema.Below element (lines ++ [[]]) final ↔
      ∃ next, schema.Below element lines next ∧ next.readLine [] = .ok final := by
  have kept : withoutBlankEnd (lines ++ [[]]) = withoutBlankEnd lines :=
    List.rdropWhile_concat_pos _ _ _ rfl
  rw [Below, kept, length_blankEnd_concat_nil]
  constructor
  · intro waiting
    obtain ⟨extended, made, rfl⟩ := waiting
    exact ⟨_, ⟨extended, made, rfl⟩, opened.readLine_nil (Element.key_foldlM made) _⟩
  · intro run
    obtain ⟨next, ⟨extended, made, rfl⟩, last⟩ := run
    rw [opened.readLine_nil (Element.key_foldlM made)] at last
    exact ⟨extended, made, Except.ok.inj last⟩

/-- A line with content takes all blank lines in front of it along. -/
theorem Open.below_concat_iff (opened : schema.Open element) {lines : List Text} {line : Text}
    (continues : Continuation line) (content : line ≠ []) {final : Schema} :
    schema.Below element (lines ++ [line]) final ↔
      ∃ next, schema.Below element lines next ∧ next.readLine line = .ok final := by
  have kept : withoutBlankEnd (lines ++ [line]) = lines ++ [line] :=
    List.rdropWhile_concat_neg _ _ _ (by simpa using content)
  have split : lines ++ [line] = withoutBlankEnd lines ++
      (List.replicate (lines.length - (withoutBlankEnd lines).length) [] ++ [line]) := by
    rw [← List.append_assoc, withoutBlankEnd_append_blanks]
  rw [Below, kept, Nat.sub_self, split]
  constructor
  · intro lengthened
    obtain ⟨longer, read, taken⟩ := lengthened
    obtain ⟨extended, made, more⟩ := foldlM_append_eq_ok_iff.mp read
    exact ⟨_, ⟨extended, made, rfl⟩,
      (opened.readLine_extended (Element.key_foldlM made) _ continues content).mpr
        ⟨longer, more, taken⟩⟩
  · intro run
    obtain ⟨next, ⟨extended, made, rfl⟩, last⟩ := run
    obtain ⟨longer, more, taken⟩ :=
      (opened.readLine_extended (Element.key_foldlM made) _ continues content).mp last
    exact ⟨longer, foldlM_append_eq_ok_iff.mpr ⟨extended, made, more⟩, taken⟩

/-- Lines are read below a header one after another, where each is blank or has content. -/
theorem Open.foldlM_body (opened : schema.Open element) (settled : schema.blanks = 0)
    {lines : List Text} (continues : ∀ line ∈ lines, Continuation line) {final : Schema} :
    lines.foldlM Schema.readLine schema = .ok final ↔ schema.Below element lines final := by
  induction lines using List.reverseRecOn generalizing final with
  | nil =>
      rw [opened.below_nil_iff settled]
      exact ⟨Except.ok.inj, congrArg Except.ok⟩
  | append_singleton lines line inductionHypothesis =>
      have before := @inductionHypothesis fun other member =>
        continues other (List.mem_append_left [line] member)
      simp only [foldlM_concat_eq_ok_iff, before]
      by_cases blank : line = []
      · rw [blank, opened.below_concat_nil_iff]
      · rw [opened.below_concat_iff (continues line (by simp)) blank]

/-- The lines of a block put the element that it declares into the schema. -/
theorem foldlM_block {block : Block} (proper : block.Proper) {final : Schema} :
    block.lines.foldlM readLine schema = .ok final ↔
      ∃ element, block.element = .ok element ∧
        { schema.insert element with
          opened := some element.key
          blanks := block.below.length - (withoutBlankEnd block.below).length } = final := by
  have noEnd := proper.header.noEnd
  have header {next : Schema} : schema.readLine block.header = .ok next ↔ ∃ bare,
      Element.ofHeader (Element.headerKind block.header) block.header = .ok bare ∧
        { schema.insert bare with opened := some bare.key, blanks := 0 } = next := by
    rw [readLine_header_iff (noEnd.symm ▸ proper.header.marked), noEnd]
  have opened (bare : Element) :
      Open { schema.insert bare with opened := some bare.key, blanks := 0 } bare :=
    ⟨rfl, Keyed.find?_insert_self Element.key bare schema.elements⟩
  have state {bare element : Element} {lines : List Text}
      (read : lines.foldlM Element.addLine bare = .ok element) (count : Nat) :
      (Schema.insert { schema.insert bare with opened := some bare.key, blanks := 0 }
        element).withBlanks count =
      { schema.insert element with opened := some element.key, blanks := count } := by
    rw [Element.key_foldlM read, ← @insert_insert schema _ _ (Element.key_foldlM read)]
    rfl
  rw [Block.lines, foldlM_cons_eq_ok_iff]
  simp only [header, Block.element_eq_ok_iff]
  constructor
  · intro run
    obtain ⟨start, ⟨bare, made, rfl⟩, below⟩ := run
    obtain ⟨element, read, rfl⟩ := ((opened bare).foldlM_body rfl proper.continues).mp below
    exact ⟨element, ⟨bare, made, read⟩, (state read _).symm⟩
  · intro declared
    obtain ⟨element, ⟨bare, made, read⟩, rfl⟩ := declared
    refine ⟨_, ⟨bare, made, rfl⟩, ((opened bare).foldlM_body rfl proper.continues).mpr ?_⟩
    exact ⟨element, read, state read _⟩

theorem foldl_insert (schema : Schema) (elements : List Element) :
    elements.foldl insert schema = { schema with
      elements := elements.foldl (fun held element => Keyed.insert Element.key element held)
        schema.elements } := by
  induction elements generalizing schema with
  | nil => rfl
  | cons element rest inductionHypothesis => exact inductionHypothesis (schema.insert element)

/-- Blocks put their elements into the schema one after another. -/
theorem foldlM_blocks {blocks : List Block} (proper : ∀ block ∈ blocks, block.Proper)
    {target : Schema} :
    (∃ final, (blocks.flatMap Block.lines).foldlM readLine schema = .ok final ∧
        final.close = target) ↔
      ∃ elements, List.Forall₂ (fun block element => block.element = .ok element) blocks elements ∧
        elements.foldl insert schema.close = target := by
  induction blocks generalizing schema with
  | nil =>
      constructor
      · intro run
        obtain ⟨final, read, rfl⟩ := run
        exact ⟨[], .nil, by rw [← Except.ok.inj read]; rfl⟩
      · intro declared
        obtain ⟨elements, none, rfl⟩ := declared
        cases none
        exact ⟨schema, rfl, rfl⟩
  | cons block rest inductionHypothesis =>
      have first (final : Schema) :=
        @foldlM_block schema block (proper block List.mem_cons_self) final
      have later (start : Schema) := @inductionHypothesis start
        fun other member => proper other (List.mem_cons_of_mem block member)
      rw [List.flatMap_cons]
      constructor
      · intro run
        obtain ⟨final, read, closed⟩ := run
        obtain ⟨next, front, back⟩ := foldlM_append_eq_ok_iff.mp read
        obtain ⟨element, declared, rfl⟩ := (first next).mp front
        obtain ⟨elements, others, result⟩ := (later _).mp ⟨final, back, closed⟩
        exact ⟨element :: elements, .cons declared others, result⟩
      · intro declared
        obtain ⟨all, each, result⟩ := declared
        obtain ⟨element, elements, here, others, rfl⟩ := List.forall₂_cons_left_iff.mp each
        obtain ⟨next, front, closedNext⟩ : ∃ next,
            block.lines.foldlM readLine schema = .ok next ∧
              next.close = schema.close.insert element :=
          ⟨_, (first _).mpr ⟨element, here, rfl⟩, rfl⟩
        obtain ⟨final, back, closed⟩ := (later next).mpr
          ⟨elements, others, by rw [closedNext]; exact result⟩
        exact ⟨final, foldlM_append_eq_ok_iff.mpr ⟨next, front, back⟩, closed⟩

theorem exists_foldlM_concat_nil_iff {lines : List Text} {target : Schema} :
    (∃ final, (lines ++ [[]]).foldlM readLine schema = .ok final ∧ final.close = target) ↔
      ∃ final, lines.foldlM readLine schema = .ok final ∧ final.close = target := by
  simp only [foldlM_concat_eq_ok_iff]
  constructor
  · intro run
    obtain ⟨final, ⟨next, read, blank⟩, closed⟩ := run
    rw [← Except.ok.inj blank, close_addBlank] at closed
    exact ⟨next, read, closed⟩
  · intro run
    obtain ⟨final, read, closed⟩ := run
    exact ⟨final.addBlank, ⟨final, read, rfl⟩, final.close_addBlank.trans closed⟩

/-- Written elements that stand a blank line apart are put into the schema as they reread. -/
theorem foldlM_intercalate {elements : List Element} (each : ∀ element ∈ elements, element.Loaded)
    {target : Schema} :
    (∃ final, ([[]].intercalate (elements.map Element.lines)).foldlM readLine schema = .ok final ∧
        final.close = target) ↔
      ∃ again, List.Forall₂ (fun element other => element.reread = .ok other) elements again ∧
        again.foldl insert schema.close = target := by
  have proper : ∀ block ∈ elements.map Element.block, block.Proper := by
    intro block member
    obtain ⟨element, inside, rfl⟩ := List.mem_map.mp member
    exact (each element inside).proper_block
  have lines : (∃ final, ([[]].intercalate (elements.map Element.lines)).foldlM readLine schema =
        .ok final ∧ final.close = target) ↔
      ∃ final, ((elements.map Element.block).flatMap Block.lines).foldlM readLine schema =
        .ok final ∧ final.close = target := by
    by_cases empty : elements = []
    · rw [empty]
      rfl
    · rw [← Element.intercalate_lines_concat empty]
      exact exists_foldlM_concat_nil_iff.symm
  have rereads (again : List Element) :
      List.Forall₂ (fun block element => block.element = .ok element)
          (elements.map Element.block) again ↔
        List.Forall₂ (fun element other => element.reread = .ok other) elements again := by
    rw [List.forall₂_map_left_iff, List.forall₂_iff_zip, List.forall₂_iff_zip]
    refine and_congr_right fun _ => forall₂_congr fun element other => ?_
    refine forall_congr' fun member => ?_
    exact (each element (List.of_mem_zip member).1).element_block_iff
  rw [lines, foldlM_blocks proper]
  simp only [rereads]

end Schema

end GedcomGrammar
