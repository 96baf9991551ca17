/-
This file proves what an element becomes when its written lines are read again.
-/

import GedcomGrammar.Proofs.Element.Written
import GedcomGrammar.Proofs.Primitive.Rereading
import GedcomGrammar.Proofs.Structure.Rereading

namespace GedcomGrammar

namespace Element

/-- What the written lines of an element make, read below its header. -/
def reread (element : Element) : Except RowError Element :=
  (withoutBlankEnd element.body).foldlM addLine element.bare

theorem foldlM_primitive (content : Primitive) (lines : List Text) :
    lines.foldlM addLine (.primitive content) =
      .ok (.primitive (lines.foldl Primitive.addLine content)) := by
  induction lines generalizing content with
  | nil => rfl
  | cons line rest inductionHypothesis => exact inductionHypothesis (content.addLine line)

theorem foldlM_tag (content : Tag) (lines : List Text) :
    lines.foldlM addLine (.tag content) = .ok (.tag (lines.foldl Tag.addLine content)) := by
  induction lines generalizing content with
  | nil => rfl
  | cons line rest inductionHypothesis => exact inductionHypothesis (content.addLine line)

theorem foldlM_struct (content : Structure) (lines : List Text) :
    lines.foldlM addLine (.struct content) =
      (lines.foldlM Structure.addLine content).map .struct := by
  induction lines generalizing content with
  | nil => rfl
  | cons line rest inductionHypothesis =>
      rw [List.foldlM_cons, List.foldlM_cons, addLine]
      cases content.addLine line with
      | error error => rfl
      | ok next => exact inductionHypothesis next

theorem reread_primitive {content : Primitive} (loaded : content.Loaded) :
    (Element.primitive content).reread = .ok (.primitive content.reread) := by
  rw [reread, bare, foldlM_primitive, body, Primitive.foldl_body loaded]

theorem reread_tag {content : Tag} (loaded : content.Loaded) :
    (Element.tag content).reread = .ok (.tag content.reread) := by
  rw [reread, bare, foldlM_tag, body, Tag.foldl_body loaded]

theorem reread_struct {content : Structure} (loaded : content.Loaded)
    (readable : ∀ row ∈ content.rows, row.Readable) :
    (Element.struct content).reread = .ok (.struct content.reread) := by
  rw [reread, bare, foldlM_struct, body, Structure.foldlM_body loaded readable]
  rfl

theorem Loaded.foldlM {element extended : Element} {lines : List Text} (loaded : element.Loaded)
    (continues : ∀ line ∈ lines, Continuation line)
    (read : lines.foldlM Element.addLine element = .ok extended) : extended.Loaded :=
  foldlM_keeps loaded (fun _ line _ member old => old.addLine (continues line member)) read

/-- A line leaves the header of an element as it is. -/
theorem bare_addLine {element extended : Element} {line : Text}
    (added : element.addLine line = .ok extended) : extended.bare = element.bare := by
  cases element with
  | primitive content =>
      rw [← Except.ok.inj added, bare, bare, Primitive.addLine]
      split
      · rfl
      · split
        · rfl
        · split
          · rfl
          · split <;> rfl
  | tag content =>
      rw [← Except.ok.inj added]
      rfl
  | struct content =>
      obtain ⟨longer, made, rfl⟩ := map_eq_ok_iff.mp added
      rw [bare, bare, Structure.label_addLine made]

theorem bare_foldlM {element extended : Element} {lines : List Text}
    (read : lines.foldlM addLine element = .ok extended) : extended.bare = element.bare :=
  @foldlM_keeps _ _ _ _ (fun held => held.bare = element.bare) _ _ _ rfl
    (fun _ _ _ _ same added => (bare_addLine added).trans same) read

@[simp] theorem bare_bare (element : Element) : element.bare.bare = element.bare := by
  cases element <;> rfl

theorem Loaded.bare {element : Element} (loaded : element.Loaded) : element.bare.Loaded :=
  loaded_ofHeader loaded.header.noFeed loaded.ofHeader_headerText

/-- What an element rereads as is loaded under the same header. -/
theorem Loaded.reread {element again : Element} (loaded : element.Loaded)
    (read : element.reread = .ok again) : again.Loaded ∧ again.bare = element.bare := by
  constructor
  · exact loaded.bare.foldlM (fun line member =>
      loaded.continues ((List.rdropWhile_prefix _ _).subset member)) read
  · rw [bare_foldlM read, bare_bare]

/-- The same text has the same lines below the header. -/
theorem Loaded.body_eq_of_text {element again : Element} (loaded : element.Loaded)
    (loadedAgain : again.Loaded) (same : again.text = element.text) :
    again.body = element.body := by
  have split := congrArg (List.splitOn '\n') same
  rw [loadedAgain.splitOn_text, loaded.splitOn_text, List.cons.injEq] at split
  exact split.2

theorem Loaded.getLast?_text {element : Element} (loaded : element.Loaded)
    (last : element.body.getLast? ≠ some []) : element.text.getLast? ≠ some '\n' := by
  intro feed
  have blank := Text.getLast?_splitOn feed
  rw [loaded.splitOn_text, List.getLast?_cons, Option.some.injEq] at blank
  cases lines : element.body.getLast? with
  | none =>
      rw [lines, Option.getD_none] at blank
      have marked := loaded.header.marked
      rw [blank] at marked
      exact absurd marked (by decide)
  | some line =>
      rw [lines, Option.getD_some] at blank
      exact last (by rw [lines, blank])

end Element

end GedcomGrammar
