/-
This file proves which lines the text of a primitive has.
-/

import GedcomGrammar.Proofs.Primitive.Loaded

namespace GedcomGrammar

namespace Primitive

/-- An empty list of terms has no line. -/
def termLines (primitive : Primitive) : List Text :=
  match primitive.terms with
  | none => []
  | some [] => []
  | some terms => termsLine :: terms.map Term.text

/-- Default alternatives have no line. -/
def alternativesLines (primitive : Primitive) : List Text :=
  if primitive.alternatives.isDefault then [] else ['[' :: primitive.alternatives.text ++ [']']]

/-- The lines below the header. -/
def body (primitive : Primitive) : List Text :=
  primitive.alternativesLines ++ descriptionLines primitive.description ++ primitive.termLines

theorem continues_alternativesLines {primitive : Primitive} (loaded : primitive.Loaded)
    {line : Text} (member : line ∈ primitive.alternativesLines) : Continuation line := by
  unfold alternativesLines at member
  split at member
  · exact absurd member List.not_mem_nil
  · rw [List.mem_singleton] at member
    exact member ▸ loaded.alternatives.continues

theorem continues_termLines {primitive : Primitive} (loaded : primitive.Loaded) {line : Text}
    (member : line ∈ primitive.termLines) : Continuation line := by
  unfold termLines at member
  split at member
  · exact absurd member List.not_mem_nil
  · exact absurd member List.not_mem_nil
  · rename_i terms _ opened
    rcases List.mem_cons.mp member with rfl | listed
    · exact ⟨by decide, by decide, by decide⟩
    · obtain ⟨term, inside, rfl⟩ := List.mem_map.mp listed
      exact ((loaded.terms terms opened).each term inside).continues

theorem Loaded.continues {primitive : Primitive} (loaded : primitive.Loaded) {line : Text}
    (member : line ∈ primitive.body) : Continuation line := by
  rw [body, List.mem_append, List.mem_append] at member
  rcases member with (listed | described) | terms
  · exact continues_alternativesLines loaded listed
  · exact (loaded.described.continues described).1
  · exact continues_termLines loaded terms

theorem splitOn_text {primitive : Primitive} (loaded : primitive.Loaded)
    (noFeed : '\n' ∉ primitive.headerText) :
    primitive.text.splitOn '\n' = primitive.headerText :: primitive.body := by
  have listed : (primitive.alternativesLines.flatMap fun part => part.splitOn '\n') =
      primitive.alternativesLines :=
    Text.flatMap_splitOn_of_notMem fun _ member =>
      (continues_alternativesLines loaded member).noFeed
  have terms : (primitive.termLines.flatMap fun part => part.splitOn '\n') =
      primitive.termLines :=
    Text.flatMap_splitOn_of_notMem fun _ member => (continues_termLines loaded member).noFeed
  have parts : primitive.parts = primitive.headerText :: (primitive.alternativesLines ++
      (if primitive.description = [] then [] else [primitive.description]) ++
        primitive.termLines) := rfl
  rw [text, parts, splitOn_parts noFeed, List.flatMap_append, List.flatMap_append, listed, terms,
    flatMap_splitOn_description, body]

theorem notMem_sizeText {char : Char} (digit : char.isDigit = false) (other : char ≠ ':')
    (primitive : Primitive) : char ∉ primitive.sizeText := by
  unfold sizeText
  split
  · exact Text.notMem_decimal digit _
  · rw [List.mem_append, List.mem_cons]
    rintro (lower | colon | upper)
    · exact Text.notMem_decimal digit _ lower
    · exact other colon
    · exact Text.notMem_decimal digit _ upper

theorem notMem_label {primitive : Primitive} (loaded : primitive.Loaded) {char : Char}
    (other : isLabelChar char = false) : char ∉ primitive.label := by
  intro member
  rw [loaded.labelChars char member] at other
  exact Bool.noConfusion other

theorem Loaded.header {primitive : Primitive} (loaded : primitive.Loaded) :
    Header primitive.headerText where
  noFeed := by
    have inLabel : '\n' ∉ primitive.label := notMem_label loaded (by decide)
    have inSizes : '\n' ∉ primitive.sizeText := notMem_sizeText (by decide) (by decide) primitive
    simp [headerText, inLabel, inSizes]
  noEnd := Continuation.withoutLineEnd_concat (by decide) (by decide)
  marked := by
    rw [Element.isHeader_iff]
    exact ⟨primitive.label, ' ' :: '{' :: "Size=".toList ++ primitive.sizeText ++ ['}'],
      by simp [headerText, headerMark]⟩

theorem headerKind_headerText (primitive : Primitive) :
    Element.headerKind primitive.headerText = .primitive := by
  have closed : (Text.dropTail? ['}'] primitive.headerText).isSome = true :=
    Text.isSome_dropTail?_iff.mpr ⟨_, rfl⟩
  rw [Element.headerKind, if_pos closed]

theorem ofHeader_headerText {primitive : Primitive} (loaded : primitive.Loaded) :
    ofHeader primitive.headerText =
      .ok { label := primitive.label
            sizeMin := primitive.sizeMin
            sizeMax := primitive.sizeMax } := by
  have isLabel : IsLabel primitive.label :=
    isLabel_iff.mpr ⟨loaded.label, List.all_eq_true.mpr loaded.labelChars⟩
  have heads := heads_headerText isLabel loaded.range loaded.limit
  exact ofHeader_eq_iff.mpr (.declared heads loaded.range)

end Primitive

end GedcomGrammar
