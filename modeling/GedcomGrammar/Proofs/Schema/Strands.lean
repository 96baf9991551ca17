/-
This file proves which blank lines are left at the end of an element.
-/

import GedcomGrammar.Proofs.Element.Settled
import GedcomGrammar.Proofs.Schema.Refusals

namespace GedcomGrammar

namespace Text

/-- Blank lines lengthen a description that has begun. -/
def afterBlanks (description : Text) (count : Nat) : Text :=
  if description = [] then [] else description ++ List.replicate count '\n'

theorem afterBlanks_zero (description : Text) : description.afterBlanks 0 = description := by
  unfold afterBlanks
  split
  · rename_i empty
    exact empty.symm
  · exact List.append_nil description

theorem getLast?_afterBlanks {description : Text} (begun : description ≠ []) {count : Nat}
    (waiting : count ≠ 0) : (description.afterBlanks count).getLast? = some '\n' := by
  obtain ⟨count, rfl⟩ := Nat.exists_eq_succ_of_ne_zero waiting
  rw [afterBlanks, if_neg begun, List.replicate_succ', ← List.append_assoc, List.getLast?_concat]

/-- A line with some content ends the description that it is added to. -/
theorem getLast?_addLine (description : Text) {line : Text} (content : line ≠ []) :
    (description.addLine line).getLast? = line.getLast? := by
  unfold addLine
  split
  · rfl
  · rw [List.getLast?_append_of_ne_nil _ (List.cons_ne_nil _ _),
      List.getLast?_cons_of_ne_nil content]

end Text

namespace Primitive

/-- Blank lines lengthen the description as long as no terms have followed. -/
def afterBlanks (primitive : Primitive) (count : Nat) : Primitive :=
  if primitive.terms = none then
    { primitive with description := primitive.description.afterBlanks count }
  else primitive

theorem foldl_blanks (primitive : Primitive) (count : Nat) :
    (List.replicate count []).foldl addLine primitive = primitive.afterBlanks count := by
  cases opened : primitive.terms with
  | none =>
      have usual : ∀ line ∈ List.replicate count [], IsDescription line := fun line member =>
        (List.eq_of_mem_replicate member).symm ▸ isDescription_nil
      rw [foldl_description opened usual, Text.foldl_addLine_blanks, afterBlanks, if_pos opened]
      rfl
  | some terms =>
      have kept : primitive.addLine [] = primitive := by
        simp [addLine, alternatives?, termsLine, opened]
      rw [afterBlanks, if_neg (by simp [opened])]
      induction count with
      | zero => rfl
      | succ count inductionHypothesis => rwa [List.replicate_succ, List.foldl_cons, kept]

theorem afterBlanks_eq_self {primitive : Primitive} {count : Nat}
    (spared : count = 0 ∨ primitive.description = [] ∨ primitive.terms ≠ none) :
    primitive.afterBlanks count = primitive := by
  unfold afterBlanks
  rcases spared with rfl | empty | opened
  · rw [Text.afterBlanks_zero, ite_self]
  · rw [Text.afterBlanks, if_pos empty, ← empty, ite_self]
  · rw [if_neg opened]

@[simp] theorem terms_afterBlanks (primitive : Primitive) (count : Nat) :
    (primitive.afterBlanks count).terms = primitive.terms := by
  unfold afterBlanks
  split <;> rfl

theorem description_afterBlanks {primitive : Primitive} (noTerms : primitive.terms = none)
    (count : Nat) :
    (primitive.afterBlanks count).description = primitive.description.afterBlanks count := by
  rw [afterBlanks, if_pos noTerms]

/-- A line of any other sort goes to the alternatives or to the terms. -/
theorem description_addLine {primitive : Primitive} {line : Text}
    (other : ¬(IsDescription line ∧ primitive.terms = none)) :
    (primitive.addLine line).description = primitive.description := by
  unfold addLine
  split
  · rfl
  · rename_i unlisted
    split
    · rfl
    · rename_i notTerms
      split
      · rename_i noTerms
        exact absurd ⟨⟨head?_ne_of_alternatives? unlisted, notTerms⟩, noTerms⟩ other
      · split <;> rfl

/-- A line of the list of alternatives, or the one that opens the terms, leaves no terms behind. -/
theorem noTerms_addLine {primitive : Primitive} {line : Text} (noTerms : primitive.terms = none)
    (other : ¬IsDescription line) : (primitive.addLine line).terms.getD [] = [] := by
  unfold addLine
  split
  · rw [noTerms]
    rfl
  · rename_i unlisted
    split
    · rfl
    · rename_i notTerms
      exact absurd ⟨head?_ne_of_alternatives? unlisted, notTerms⟩ other

/-- No line feed gets to the end of a description that is not left with blank lines behind it. -/
theorem getLast?_description_addLine {primitive : Primitive} {line : Text} {count : Nat}
    (trimmed : primitive.description.getLast? ≠ some '\n') (content : line ≠ [])
    (last : line.getLast? ≠ some '\n')
    (spared : count = 0 ∨ primitive.description = [] ∨ primitive.terms ≠ none ∨
      IsDescription line) :
    ((primitive.afterBlanks count).addLine line).description.getLast? ≠ some '\n' := by
  by_cases usual : IsDescription line ∧ primitive.terms = none
  · have opened := (primitive.terms_afterBlanks count).trans usual.2
    have added := foldl_description opened (List.forall_mem_singleton.mpr usual.1)
    rw [List.foldl_cons, List.foldl_nil] at added
    rw [added]
    exact (Text.getLast?_addLine _ content).trans_ne last
  · have still : primitive.afterBlanks count = primitive := by
      refine afterBlanks_eq_self (spared.imp_right fun kept => kept.imp_right fun past => ?_)
      exact past.elim id fun plain noTerms => usual ⟨plain, noTerms⟩
    rw [still, description_addLine usual]
    exact trimmed

/-- The description is what can leave a line feed at the end of the text. -/
theorem getLast?_text_iff_description {primitive : Primitive} (loaded : primitive.Loaded)
    (noTerms : primitive.terms.getD [] = []) :
    primitive.text.getLast? ≠ some '\n' ↔ primitive.description.getLast? ≠ some '\n' := by
  rw [getLast?_text_iff loaded noTerms, Text.withoutFeedEnd_eq_self_iff]

end Primitive

namespace Structure

theorem afterBlanks_eq_self {shape : Structure} {count : Nat}
    (spared : count = 0 ∨ shape.description = [] ∨ shape.rows ≠ []) :
    shape.afterBlanks count = shape := by
  rcases spared with rfl | empty | present
  · exact shape.afterBlanks_zero
  · exact if_neg fun begun => begun.2 empty
  · exact if_neg fun begun => present begun.1

theorem description_afterBlanks {shape : Structure} (noRows : shape.rows = []) (count : Nat) :
    (shape.afterBlanks count).description = shape.description.afterBlanks count := by
  by_cases empty : shape.description = []
  · rw [afterBlanks_eq_self (.inr (.inl empty)), Text.afterBlanks, if_pos empty, empty]
  · rw [afterBlanks, if_pos ⟨noRows, empty⟩, Text.afterBlanks, if_neg empty]

@[simp] theorem rows_afterBlanks (shape : Structure) (count : Nat) :
    (shape.afterBlanks count).rows = shape.rows := by
  unfold afterBlanks
  split <;> rfl

/-- A mark between groups or around them, or what starts like a row and is none. -/
def IsIdle (line : Text) : Prop :=
  line = ['|'] ∨ line = ['['] ∨ line = [']'] ∨
    startsRow line = true ∧ ∃ error, Row.ofLine line = .error error

/-- An idle line is refused, or it changes neither the description nor the rows. -/
theorem addLine_of_isIdle (shape : Structure) {line : Text} (idle : IsIdle line) :
    (∃ error, shape.addLine line = .error error) ∨ ∃ longer, shape.addLine line = .ok longer ∧
      longer.description = shape.description ∧ longer.rows = shape.rows := by
  rcases idle with rfl | rfl | rfl | ⟨starts, error, unread⟩
  · exact .inr ⟨shape.addGroup, rfl, rfl, shape.rows_addGroup⟩
  · exact .inr ⟨shape, addLine_bracket (.inl rfl), rfl, rfl⟩
  · exact .inr ⟨shape, addLine_bracket (.inr rfl), rfl, rfl⟩
  · refine .inl ⟨error, ?_⟩
    rw [addLine, if_pos starts, unread]
    rfl

/-- Any other line with some content is a row or goes to the description. -/
theorem addLine_of_not_isIdle (shape : Structure) {line : Text} (content : line ≠ [])
    (busy : ¬IsIdle line) :
    (∃ row, shape.addLine line = .ok (shape.addRow row)) ∨
      shape.addLine line = .ok { shape with description := shape.description.addLine line } := by
  obtain ⟨noBar, noStart, noEnd, noFault⟩ : line ≠ ['|'] ∧ line ≠ ['['] ∧ line ≠ [']'] ∧
      ¬(startsRow line = true ∧ ∃ error, Row.ofLine line = .error error) := by
    simpa only [IsIdle, not_or] using busy
  by_cases starts : startsRow line = true
  · cases read : Row.ofLine line with
    | error error => exact absurd ⟨starts, error, read⟩ noFault
    | ok row =>
        refine .inl ⟨row, ?_⟩
        rw [addLine, if_pos starts, read]
        rfl
  · right
    rw [addLine, if_neg starts, if_neg noBar, if_neg fun blank => content blank.1,
      if_neg (not_or.mpr ⟨noStart, noEnd⟩)]

/-- An idle line in front of the rows shows what the blank lines before it have left. -/
theorem getLast?_description_of_isIdle {shape longer : Structure} {line : Text}
    (trimmed : shape.rows = [] → shape.description.getLast? ≠ some '\n') (idle : IsIdle line)
    (added : shape.addLine line = .ok longer) (noRows : longer.rows = []) :
    longer.description.getLast? ≠ some '\n' := by
  rcases shape.addLine_of_isIdle idle with ⟨error, refused⟩ | ⟨same, accepted, description, rows⟩
  · exact absurd (refused.symm.trans added) (by simp)
  · obtain rfl := Except.ok.inj (accepted.symm.trans added)
    rw [description]
    exact trimmed (rows ▸ noRows)

/-- Any other line becomes a row or the end of the description. -/
theorem getLast?_description_of_not_isIdle {shape longer : Structure} {line : Text}
    (content : line ≠ []) (last : line.getLast? ≠ some '\n') (busy : ¬IsIdle line)
    (added : shape.addLine line = .ok longer) (noRows : longer.rows = []) :
    longer.description.getLast? ≠ some '\n' := by
  rcases shape.addLine_of_not_isIdle content busy with ⟨row, accepted⟩ | accepted
  · obtain rfl := Except.ok.inj (accepted.symm.trans added)
    rw [rows_addRow] at noRows
    exact absurd noRows (by simp)
  · obtain rfl := Except.ok.inj (accepted.symm.trans added)
    exact (Text.getLast?_addLine _ content).trans_ne last

/-- Only an idle line is refused. -/
theorem isIdle_of_refused {shape : Structure} {line : Text} {error : RowError}
    (content : line ≠ []) (refused : shape.addLine line = .error error) : IsIdle line := by
  by_contra busy
  rcases shape.addLine_of_not_isIdle content busy with ⟨row, accepted⟩ | accepted
  · exact absurd (refused.symm.trans accepted) (by simp)
  · exact absurd (refused.symm.trans accepted) (by simp)

theorem getLast?_text_iff_description {shape : Structure} (loaded : shape.Loaded)
    (noRows : shape.rows = []) :
    shape.text.getLast? ≠ some '\n' ↔ shape.description.getLast? ≠ some '\n' := by
  rw [getLast?_text_iff loaded noRows, Text.withoutFeedEnd_eq_self_iff]

end Structure

namespace Element

/-- The open element after blank lines that waited. -/
def afterBlanks (count : Nat) : Element → Element
  | .primitive content => .primitive (content.afterBlanks count)
  | .tag content => .tag { content with description := content.description.afterBlanks count }
  | .struct content => .struct (content.afterBlanks count)

theorem foldlM_blanks (element : Element) (count : Nat) :
    (List.replicate count []).foldlM addLine element = .ok (element.afterBlanks count) := by
  cases element with
  | primitive content => rw [foldlM_primitive, Primitive.foldl_blanks, afterBlanks]
  | tag content =>
      rw [foldlM_tag, Tag.foldl_addLine, Text.foldl_addLine_blanks]
      rfl
  | struct content =>
      rw [foldlM_struct, Structure.foldlM_blanks]
      rfl

/-- The open element after blank lines that waited and a line that it takes or refuses. -/
def afterLine (element : Element) (count : Nat) (line : Text) : Element :=
  match (element.afterBlanks count).addLine line with
  | .ok longer => longer
  | .error _ => element.afterBlanks count

theorem key_afterLine (element : Element) (count : Nat) (line : Text) :
    (element.afterLine count line).key = element.key := by
  have blanks := key_foldlM (element.foldlM_blanks count)
  unfold afterLine
  split
  · rename_i longer added
    exact (key_addLine added).trans blanks
  · exact blanks

theorem Loaded.afterLine {element : Element} {line : Text} (loaded : element.Loaded)
    (continues : Continuation line) (count : Nat) : (element.afterLine count line).Loaded := by
  have blanks : (element.afterBlanks count).Loaded :=
    loaded.foldlM (fun line member => (List.eq_of_mem_replicate member).symm ▸ Continuation.nil)
      (element.foldlM_blanks count)
  unfold Element.afterLine
  split
  · rename_i longer added
    exact blanks.addLine continues added
  · exact blanks

/-- A line that follows blank ones leaves them at the end of the element that is open. -/
def Strands : Element → Text → Prop
  | .primitive content, line =>
      content.description ≠ [] ∧ content.terms = none ∧
        (line.head? = some '[' ∨ line = Primitive.termsLine)
  | .tag _, _ => False
  | .struct content, line =>
      content.description ≠ [] ∧ content.rows = [] ∧ Structure.IsIdle line

theorem Strands.content {element : Element} {line : Text} (strands : element.Strands line) :
    line ≠ [] := by
  rintro rfl
  cases element with
  | primitive content =>
      obtain ⟨-, -, bracket | opening⟩ := strands
      · exact absurd bracket (by simp)
      · exact absurd opening (by decide)
  | tag content => exact strands
  | struct content =>
      obtain ⟨-, -, bar | start | finish | ⟨starts, -⟩⟩ := strands
      · exact absurd bar (by simp)
      · exact absurd start (by simp)
      · exact absurd finish (by simp)
      · exact absurd starts (by decide)

theorem Strands.kind_ne_tag {element : Element} {line : Text} (strands : element.Strands line) :
    element.kind ≠ .tag := by
  cases element with
  | primitive content => exact ElementKind.noConfusion
  | tag content => exact strands.elim
  | struct content => exact ElementKind.noConfusion

/-- No line feed ends the description of an element, unless its rows stand below. -/
def Trimmed : Element → Prop
  | .primitive content => content.description.getLast? ≠ some '\n'
  | .tag content => content.description.getLast? ≠ some '\n'
  | .struct content => content.rows = [] → content.description.getLast? ≠ some '\n'

theorem Trimmed.getLast?_text {element : Element} (trimmed : element.Trimmed)
    (loaded : element.Loaded) : element.text.getLast? ≠ some '\n' := by
  cases element with
  | primitive content =>
      by_cases noTerms : content.terms.getD [] = []
      · exact (Primitive.getLast?_text_iff_description loaded noTerms).mpr trimmed
      · exact loaded.getLast?_text (content.getLast?_termLines noTerms)
  | tag content =>
      exact (Tag.getLast?_text_iff loaded).mpr (Text.withoutFeedEnd_eq_self_iff.mpr trimmed)
  | struct content =>
      by_cases noRows : content.rows = []
      · exact (Structure.getLast?_text_iff_description loaded noRows).mpr (trimmed noRows)
      · exact loaded.getLast?_text (content.getLast?_body noRows)

/-- A header line declares an element without a description. -/
theorem trimmed_ofHeader {kind : ElementKind} {line : Text} {element : Element}
    (read : ofHeader kind line = .ok element) : element.Trimmed := by
  rw [← bare_of_ofHeader read]
  cases element with
  | primitive content => exact List.getLast?_nil.trans_ne (by simp)
  | tag content => exact List.getLast?_nil.trans_ne (by simp)
  | struct content => exact fun _ => List.getLast?_nil.trans_ne (by simp)

section Lines

variable {line : Text} {count : Nat}

theorem afterLine_primitive (content : Primitive) :
    (Element.primitive content).afterLine count line =
      .primitive ((content.afterBlanks count).addLine line) :=
  rfl

theorem afterLine_tag (content : Tag) :
    (Element.tag content).afterLine count line =
      .tag { content with
        description := (content.description.afterBlanks count).addLine line } :=
  rfl

theorem afterLine_struct (content : Structure) :
    (Element.struct content).afterLine count line =
      match (content.afterBlanks count).addLine line with
      | .ok longer => .struct longer
      | .error _ => .struct (content.afterBlanks count) := by
  unfold afterLine
  rw [afterBlanks, addLine]
  cases (content.afterBlanks count).addLine line <;> rfl

theorem not_isDescription_iff :
    ¬Primitive.IsDescription line ↔ line.head? = some '[' ∨ line = Primitive.termsLine := by
  rw [Primitive.IsDescription, not_and_or, not_not, not_not]

/-- Without blank lines, or before a line that strands none, no line feed ends a description. -/
theorem Trimmed.afterLine {element : Element} (trimmed : element.Trimmed)
    (content : line ≠ []) (noFeed : '\n' ∉ line) (spared : count = 0 ∨ ¬element.Strands line) :
    (element.afterLine count line).Trimmed := by
  have last : line.getLast? ≠ some '\n' := fun feed => noFeed (List.mem_of_getLast? feed)
  cases element with
  | primitive primitive =>
      refine primitive.getLast?_description_addLine trimmed content last
        (spared.imp_right fun kept => ?_)
      by_contra begun
      simp only [not_or, not_not] at begun
      exact kept ⟨begun.1, begun.2.1, not_isDescription_iff.mp begun.2.2⟩
  | tag tag =>
      rw [afterLine_tag, Trimmed, Text.getLast?_addLine _ content]
      exact last
  | struct shape =>
      -- Blank lines before an idle line count only below a description that no row follows.
      have blanks (idle : Structure.IsIdle line) (noRows : (shape.afterBlanks count).rows = []) :
          (shape.afterBlanks count).description.getLast? ≠ some '\n' := by
        rw [shape.rows_afterBlanks] at noRows
        rw [Structure.afterBlanks_eq_self (spared.imp_right fun strands => .inl ?_)]
        · exact trimmed noRows
        · by_contra begun
          exact strands ⟨begun, noRows, idle⟩
      rw [afterLine_struct]
      cases added : (shape.afterBlanks count).addLine line with
      | error error => exact blanks (Structure.isIdle_of_refused content added)
      | ok longer =>
          by_cases idle : Structure.IsIdle line
          · exact Structure.getLast?_description_of_isIdle (blanks idle) idle added
          · exact Structure.getLast?_description_of_not_isIdle content last idle added

theorem Strands.getLast?_text {element : Element} (strands : element.Strands line)
    (loaded : element.Loaded) (continues : Continuation line) (waiting : count ≠ 0) :
    (element.afterLine count line).text.getLast? = some '\n' := by
  have loadedAfter := loaded.afterLine continues count
  by_contra other
  cases element with
  | primitive content =>
      obtain ⟨begun, noTerms, bracket⟩ := strands
      have odd := not_isDescription_iff.mpr bracket
      have still := (content.terms_afterBlanks count).trans noTerms
      rw [afterLine_primitive] at loadedAfter other
      have last := (Primitive.getLast?_text_iff_description loadedAfter
        (Primitive.noTerms_addLine still odd)).mp other
      rw [Primitive.description_addLine fun usual => odd usual.1,
        Primitive.description_afterBlanks noTerms] at last
      exact last (Text.getLast?_afterBlanks begun waiting)
  | tag content => exact strands.elim
  | struct content =>
      obtain ⟨begun, noRows, idle⟩ := strands
      have still := (content.rows_afterBlanks count).trans noRows
      have feed : (content.afterBlanks count).description.getLast? = some '\n' := by
        rw [Structure.description_afterBlanks noRows]
        exact Text.getLast?_afterBlanks begun waiting
      rw [afterLine_struct] at loadedAfter other
      rcases (content.afterBlanks count).addLine_of_isIdle idle with
        ⟨error, refused⟩ | ⟨longer, added, description, rows⟩
      · rw [refused] at loadedAfter other
        exact (Structure.getLast?_text_iff_description loadedAfter still).mp other feed
      · rw [added] at loadedAfter other
        have last := (Structure.getLast?_text_iff_description loadedAfter
          (rows.trans still)).mp other
        exact last (description ▸ feed)

end Lines

end Element

namespace Schema

variable {schema : Schema} {element : Element} {line : Text}

/-- A line leaves the blank lines before it at the end of the element that is open. -/
structure Strands (schema : Schema) (line : Text) : Prop where
  waiting : schema.blanks ≠ 0
  noHeader : Element.isHeader line.withoutLineEnd = false
  stranded : ∃ element, schema.openElement? = some element ∧
    element.Strands line.withoutLineEnd

/-- The open element takes the blank lines that waited, and the line unless it refuses it. -/
theorem Open.addLine (opened : schema.Open element) (content : line.withoutLineEnd ≠ [])
    (noHeader : Element.isHeader line.withoutLineEnd = false) :
    (schema.addLine line).1 =
      (schema.insert (element.afterLine schema.blanks line.withoutLineEnd)).withBlanks 0 := by
  obtain ⟨extended, read, settled⟩ := opened.settleBlanks
  obtain rfl := Except.ok.inj ((element.foldlM_blanks schema.blanks).symm.trans read)
  have reopened := (opened.insert (Element.key_foldlM read)).withBlanks 0
  rw [addLine_of_not_isHeader content noHeader, addContinuation, settled, reopened.extend_eq,
    Element.afterLine]
  cases added : (element.afterBlanks schema.blanks).addLine line.withoutLineEnd with
  | error error => rfl
  | ok longer => exact insert_withBlanks_insert (Element.key_addLine added) 0

/-- After a line an element is as before, newly declared, or the one that was open. -/
theorem mem_elements_addLine {after : Element} (member : after ∈ (schema.addLine line).1.elements) :
    after ∈ schema.elements ∨
      Element.ofHeader (Element.headerKind line.withoutLineEnd) line.withoutLineEnd = .ok after ∨
      line.withoutLineEnd ≠ [] ∧ Element.isHeader line.withoutLineEnd = false ∧
        ∃ element, schema.openElement? = some element ∧
          after = element.afterLine schema.blanks line.withoutLineEnd := by
  by_cases content : line.withoutLineEnd = []
  · rw [addLine_of_blank content, addBlank] at member
    refine .inl ?_
    split at member <;> exact member
  · cases header : Element.isHeader line.withoutLineEnd with
    | true =>
        rw [addLine_of_isHeader header, addHeader] at member
        split at member
        · exact .inl member
        · rename_i declared made
          rcases Keyed.mem_insert member with rfl | old
          · exact .inr (.inl made)
          · exact .inl old
    | false =>
        cases found : schema.openElement? with
        | none =>
            rw [addLine_of_closed found content header] at member
            exact .inl member
        | some element =>
            have opened := open_of_openElement? found
            rw [opened.addLine content header] at member
            rcases Keyed.mem_insert member with same | old
            · exact .inr (.inr ⟨content, rfl, element, rfl, same⟩)
            · exact .inl old

section Runs

variable {lines : List Text}

theorem afterLines_concat (schema : Schema) (lines : List Text) (line : Text) :
    schema.afterLines (lines ++ [line]) = ((schema.afterLines lines).addLine line).1 :=
  List.foldl_concat _ _ _ _

theorem continuation_of_single (single : '\n' ∉ line.withoutLineEnd)
    (noHeader : Element.isHeader line.withoutLineEnd = false) :
    Continuation line.withoutLineEnd := by
  have again : line.withoutLineEnd.withoutLineEnd = line.withoutLineEnd := Text.trimEnd_trimEnd line
  have continues := Continuation.of_withoutLineEnd single (by rwa [again])
  rwa [again] at continues

theorem loaded_addLine (loaded : ∀ element ∈ schema.elements, element.Loaded)
    (single : '\n' ∉ line.withoutLineEnd) :
    ∀ element ∈ (schema.addLine line).1.elements, element.Loaded := by
  intro after member
  rcases mem_elements_addLine member with old | made | ⟨-, noHeader, element, found, rfl⟩
  · exact loaded after old
  · exact Element.loaded_ofHeader single made
  · have before := loaded element (mem_of_find? (open_of_openElement? found).found)
    exact before.afterLine (continuation_of_single single noHeader) schema.blanks

/-- An element that is not trimmed after a line was not before, or the line strands blank ones. -/
theorem strands_of_not_trimmed {after : Element}
    (member : after ∈ (schema.addLine line).1.elements) (untrimmed : ¬after.Trimmed)
    (single : '\n' ∉ line.withoutLineEnd) :
    (∃ element ∈ schema.elements, element.kind = after.kind ∧ ¬element.Trimmed) ∨
      after.kind ≠ .tag ∧ schema.Strands line := by
  rcases mem_elements_addLine member with old | made | ⟨content, noHeader, element, found, rfl⟩
  · exact .inl ⟨after, old, rfl, untrimmed⟩
  · exact absurd (Element.trimmed_ofHeader made) untrimmed
  · have kind : (element.afterLine schema.blanks line.withoutLineEnd).kind = element.kind :=
      congrArg Prod.fst (element.key_afterLine schema.blanks line.withoutLineEnd)
    rw [kind]
    by_cases trimmed : element.Trimmed
    · have stranded : ¬(schema.blanks = 0 ∨ ¬element.Strands line.withoutLineEnd) :=
        fun spared => untrimmed (trimmed.afterLine content single spared)
      rw [not_or, not_not] at stranded
      exact .inr ⟨stranded.2.kind_ne_tag, stranded.1, noHeader, element, found, stranded.2⟩
    · exact .inl ⟨element, mem_of_find? (open_of_openElement? found).found, rfl, trimmed⟩

/-- A stranded line feed shows at once. -/
theorem Strands.exists_feed (strands : schema.Strands line)
    (loaded : ∀ element ∈ schema.elements, element.Loaded)
    (single : '\n' ∉ line.withoutLineEnd) :
    ∃ element ∈ (schema.addLine line).1.elements, element.text.getLast? = some '\n' := by
  obtain ⟨element, found, stranded⟩ := strands.stranded
  have opened := open_of_openElement? found
  have before := loaded element (mem_of_find? opened.found)
  refine ⟨element.afterLine schema.blanks line.withoutLineEnd, ?_, ?_⟩
  · rw [opened.addLine stranded.content strands.noHeader]
    exact mem_of_find? (Keyed.find?_insert_self Element.key _ schema.elements)
  · exact stranded.getLast?_text before (continuation_of_single single strands.noHeader)
      strands.waiting

section Reached

variable {limit : Nat} (single : ∀ line ∈ lines, '\n' ∉ line.withoutLineEnd)

include single

theorem loaded_afterLines :
    ∀ element ∈ (afterLines { depthLimit := limit } lines).elements, element.Loaded := by
  induction lines using List.reverseRecOn with
  | nil => exact fun _ nowhere => absurd nowhere List.not_mem_nil
  | append_singleton front line inductionHypothesis =>
      obtain ⟨singleFront, singleLast⟩ := List.forall_mem_append.mp single
      rw [afterLines_concat]
      exact loaded_addLine (inductionHypothesis singleFront) (singleLast line (by simp))

/-- What is not trimmed after a run is no tag, and a line of the run has stranded blank lines. -/
theorem exists_strands_of_not_trimmed {element : Element}
    (member : element ∈ (afterLines { depthLimit := limit } lines).elements)
    (untrimmed : ¬element.Trimmed) :
    element.kind ≠ .tag ∧ ∃ front line, front ++ [line] <+: lines ∧
      (afterLines { depthLimit := limit } front).Strands line := by
  induction lines using List.reverseRecOn generalizing element with
  | nil => exact absurd member List.not_mem_nil
  | append_singleton front line inductionHypothesis =>
      obtain ⟨singleFront, singleLast⟩ := List.forall_mem_append.mp single
      rw [afterLines_concat] at member
      rcases strands_of_not_trimmed member untrimmed (singleLast line (by simp)) with
        ⟨before, old, sameKind, untrimmedBefore⟩ | ⟨kind, strands⟩
      · obtain ⟨kind, earlier, next, leads, strands⟩ :=
          inductionHypothesis singleFront old untrimmedBefore
        exact ⟨sameKind ▸ kind, earlier, next,
          leads.trans (List.prefix_append front [line]), strands⟩
      · exact ⟨kind, front, line, List.prefix_rfl, strands⟩

end Reached

/--
In a run of lines no element is ever written with a line feed at its end, exactly if no line leaves
blank lines behind in the element that is open. Tags are written without one in any case.
-/
theorem getLast?_text_afterLines_iff (limit : Nat)
    (single : ∀ line ∈ lines, '\n' ∉ line.withoutLineEnd) :
    ((∀ front, front <+: lines →
        ∀ element ∈ (afterLines { depthLimit := limit } front).elements,
          element.text.getLast? ≠ some '\n') ↔
      ∀ front line, front ++ [line] <+: lines →
        ¬(afterLines { depthLimit := limit } front).Strands line) ∧
      ∀ tag ∈ (afterLines { depthLimit := limit } lines).tags, tag.text.getLast? ≠ some '\n' := by
  have within {front : List Text} (leads : front <+: lines) :
      ∀ line ∈ front, '\n' ∉ line.withoutLineEnd := fun line member =>
    single line (leads.subset member)
  refine ⟨⟨fun clean front line leads strands => ?_, fun spared front leads => ?_⟩, ?_⟩
  · have before := within ((List.prefix_append front [line]).trans leads)
    have last : '\n' ∉ line.withoutLineEnd := within leads line (by simp)
    obtain ⟨element, member, feed⟩ := strands.exists_feed (loaded_afterLines before) last
    rw [← afterLines_concat] at member
    exact clean _ leads element member feed
  · intro element member
    have trimmed : element.Trimmed := by
      by_contra untrimmed
      obtain ⟨-, earlier, line, inside, strands⟩ :=
        exists_strands_of_not_trimmed (within leads) member untrimmed
      exact spared earlier line (inside.trans leads) strands
    exact trimmed.getLast?_text (loaded_afterLines (within leads) element member)
  · intro tag listed
    have member : Element.tag tag ∈ (afterLines { depthLimit := limit } lines).elements := by
      obtain ⟨element, member, same⟩ := List.mem_filterMap.mp listed
      cases element with
      | primitive content => simp at same
      | tag content => exact Option.some.inj same ▸ member
      | struct content => simp at same
    have trimmed : (Element.tag tag).Trimmed := by
      by_contra untrimmed
      exact (exists_strands_of_not_trimmed single member untrimmed).1 rfl
    exact trimmed.getLast?_text (loaded_afterLines single _ member)

end Runs

/-- Alternatives stand below the description where they are read, and above it where written. -/
def letterLines : List Text :=
  ["L:= {Size=1}".toList, "A".toList, [], "[X]".toList]

theorem letterLines_strand :
    (∀ line ∈ letterLines, '\n' ∉ line.withoutLineEnd) ∧
      (afterLines { depthLimit := 32 } (letterLines.take 3)).Strands "[X]".toList ∧
      ¬∀ front, front <+: letterLines →
        ∀ element ∈ (afterLines { depthLimit := 32 } front).elements,
          element.text.getLast? ≠ some '\n' := by
  have single : ∀ line ∈ letterLines, '\n' ∉ line.withoutLineEnd := by decide +kernel
  have found : (afterLines { depthLimit := 32 } (letterLines.take 3)).openElement? =
      some (.primitive ⟨"L".toList, 1, 1, "A".toList, none, .default⟩) := by
    decide +kernel
  have strands : (afterLines { depthLimit := 32 } (letterLines.take 3)).Strands "[X]".toList :=
    ⟨by decide +kernel, by decide +kernel, _, found, by decide, rfl, .inl rfl⟩
  refine ⟨single, strands, fun clean => ?_⟩
  exact (getLast?_text_afterLines_iff 32 single).1.mp clean _ _ (by decide) strands

/-- The blank line in front of the alternatives is written behind everything else. -/
theorem letter_ends_with_feed :
    (∀ line ∈ letterLines, '\n' ∉ line) ∧
      (afterLines {} letterLines).elements.map Element.text =
        ["L:= {Size=1}\n[X]\nA\n".toList] ∧
      ∃ element ∈ (afterLines {} letterLines).elements, element.text.getLast? = some '\n' := by
  decide +kernel

end Schema

end GedcomGrammar
