/-
This file proves what lines leave in the description of an element.
-/

import GedcomGrammar.Contents
import GedcomGrammar.Proofs.Row.Legible

namespace GedcomGrammar

theorem Element.isHeader_iff {line : Text} : isHeader line = true ↔ headerMark <:+: line :=
  Text.isSome_cut?_iff (by decide)

/-- A line of an element after its header has no line end and no header mark. -/
structure Continuation (line : Text) : Prop where
  noFeed : '\n' ∉ line
  noEnd : line.withoutLineEnd = line
  noMark : ¬headerMark <:+: line

namespace Continuation

theorem isHeader {line : Text} (continues : Continuation line) :
    Element.isHeader line = false := by
  rw [← Bool.not_eq_true, Element.isHeader_iff]
  exact continues.noMark

theorem nil : Continuation [] :=
  ⟨by simp, rfl, by decide⟩

/-- A final character other than a carriage return or a line feed keeps a line as it is. -/
theorem withoutLineEnd_concat {front : Text} {last : Char} (notFeed : last ≠ '\n')
    (notReturn : last ≠ '\r') : (front ++ [last]).withoutLineEnd = front ++ [last] := by
  apply Text.trimEnd_eq_self
  intro char final
  rw [List.getLast?_concat, Option.some.injEq] at final
  rw [← final, Bool.or_eq_false_iff]
  exact ⟨beq_eq_false_iff_ne.mpr notFeed, beq_eq_false_iff_ne.mpr notReturn⟩

/-- The content of a raw line without line feed and mark. -/
theorem of_withoutLineEnd {line : Text} (noFeed : '\n' ∉ line)
    (noMark : Element.isHeader line.withoutLineEnd = false) :
    Continuation line.withoutLineEnd where
  noFeed feed := noFeed ((Text.prefix_trimEnd line).subset feed)
  noEnd := Text.trimEnd_trimEnd line
  noMark marked := by
    rw [← Element.isHeader_iff, noMark] at marked
    exact Bool.noConfusion marked

end Continuation

/-- A description has lines of its own sort and does not start with a blank line. -/
structure Described (usual : Text → Prop) (description : Text) : Prop where
  started : description.head? ≠ some '\n'
  lines : ∀ line ∈ description.splitOn '\n', Continuation line ∧ usual line

namespace Described

variable {usual : Text → Prop}

theorem nil (blank : usual []) : Described usual [] := by
  refine ⟨by simp, fun line member => ?_⟩
  rw [List.splitOn_nil, List.mem_singleton] at member
  exact member ▸ ⟨Continuation.nil, blank⟩

/-- A description takes one more line of its sort. -/
theorem addLine {description line : Text} (described : Described usual description)
    (continues : Continuation line) (accepted : usual line) :
    Described usual (description.addLine line) := by
  unfold Text.addLine
  split
  · refine ⟨fun head => continues.noFeed (List.mem_of_mem_head? head), fun part member => ?_⟩
    rw [List.splitOn_eq_singleton continues.noFeed, List.mem_singleton] at member
    exact member ▸ ⟨continues, accepted⟩
  · rename_i started
    constructor
    · rw [List.head?_append_of_ne_nil _ started]
      exact described.started
    · intro part member
      rw [List.splitOn_append_cons_self, List.splitOn_eq_singleton continues.noFeed,
        List.mem_append, List.mem_singleton] at member
      rcases member with old | new
      · exact described.lines part old
      · exact new ▸ ⟨continues, accepted⟩

end Described

/-- A line behind a paragraph goes below it, and blank lines alone leave none behind. -/
theorem Text.paragraph_concat (lines : List Text) (line : Text) :
    paragraph (lines ++ [line]) = (paragraph lines).addLine line := by
  unfold paragraph
  rw [List.dropWhile_append]
  cases begun : lines.dropWhile List.isEmpty with
  | nil => cases line <;> simp [joinWith, addLine]
  | cons first rest =>
      have content : first ≠ [] := by
        have head := List.head?_dropWhile_not List.isEmpty lines
        rw [begun] at head
        simpa using head
      have started : joinWith ['\n'] (first :: rest) ≠ [] := by
        cases rest <;> simp [joinWith, content, List.intercalate_cons_cons]
      rw [List.isEmpty_cons, if_neg Bool.false_ne_true, joinWith_concat line (by simp), addLine,
        if_neg started, List.append_assoc]
      rfl

/-- An empty description has no line, not even a blank one. -/
def descriptionLines (description : Text) : List Text :=
  if description = [] then [] else description.splitOn '\n'

/-- A description stands between other parts only if it has lines. -/
theorem flatMap_splitOn_description (description : Text) :
    ((if description = [] then [] else [description]).flatMap fun part => part.splitOn '\n') =
      descriptionLines description := by
  unfold descriptionLines
  split <;> simp

theorem Described.continues {usual : Text → Prop} {description line : Text}
    (described : Described usual description) (member : line ∈ descriptionLines description) :
    Continuation line ∧ usual line := by
  unfold descriptionLines at member
  split at member
  · exact absurd member List.not_mem_nil
  · exact described.lines line member

/-- A line feed stands between the parts of a text, of which the first is the header. -/
theorem splitOn_parts {header : Text} {rest : List Text} (noFeed : '\n' ∉ header) :
    (Text.joinWith ['\n'] (header :: rest)).splitOn '\n' =
      header :: rest.flatMap fun part => part.splitOn '\n' := by
  rw [Text.splitOn_joinWith (List.cons_ne_nil header rest), List.flatMap_cons,
    List.splitOn_eq_singleton noFeed, List.singleton_append]

/-- A written header has a mark and is its own content. -/
structure Header (line : Text) : Prop where
  noFeed : '\n' ∉ line
  noEnd : line.withoutLineEnd = line
  marked : Element.isHeader line = true

end GedcomGrammar
