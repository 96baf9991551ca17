/-
This file proves how tags are written and what reading them again makes of them.
-/

import GedcomGrammar.Proofs.Element.BlankEnd

namespace GedcomGrammar

namespace Tag

/-- A tag that was read from lines. -/
structure Loaded (tag : Tag) : Prop where
  code : tag.code ≠ []
  codeChars : ∀ char ∈ tag.code, isCodeChar char = true
  label : tag.label ≠ []
  labelChars : ∀ char ∈ tag.label, isLabelChar char = true
  described : Described (fun _ => True) tag.description

theorem loaded_ofHeader {line : Text} {tag : Tag} (read : ofHeader line = .ok tag) :
    tag.Loaded := by
  unfold ofHeader at read
  split at read
  · exact absurd read (by simp)
  · rename_i code label found
    rw [Except.ok.injEq] at read
    simp only [header?, Option.bind_eq_bind, Option.bind_eq_some_iff,
      Option.ite_none_right_eq_some, Option.some.injEq, Prod.mk.injEq] at found
    obtain ⟨rest, _, _, _, ⟨codeSome, labelSome⟩, sameCode, sameLabel⟩ := found
    rw [← read, ← sameCode, ← sameLabel]
    exact ⟨codeSome, fun _ member => List.mem_takeWhile_imp member, labelSome,
      fun _ member => List.mem_takeWhile_imp member, .nil trivial⟩

/-- A header that is read starts with the written one, and the description is empty. -/
theorem exists_append_of_ofHeader {line : Text} {tag : Tag} (read : ofHeader line = .ok tag) :
    tag.description = [] ∧ ∃ dropped, line = tag.headerText ++ dropped := by
  unfold ofHeader at read
  split at read
  · exact absurd read (by simp)
  · rename_i code label found
    simp only [header?, Option.bind_eq_bind, Option.bind_eq_some_iff, Text.dropLead?_eq_some_iff,
      Option.ite_none_right_eq_some, Option.some.injEq, Prod.mk.injEq] at found
    obtain ⟨rest, opened, dropped, closed, -, rfl, rfl⟩ := found
    obtain rfl := Except.ok.inj read
    refine ⟨rfl, dropped, ?_⟩
    calc line = line.takeWhile isCodeChar ++ line.dropWhile isCodeChar :=
          List.takeWhile_append_dropWhile.symm
      _ = line.takeWhile isCodeChar ++
            ([' ', '{'] ++ (rest.takeWhile isLabelChar ++ rest.dropWhile isLabelChar)) := by
          rw [opened, List.takeWhile_append_dropWhile]
      _ = _ := by
          rw [closed]
          simp [headerText]

theorem Loaded.addLine {tag : Tag} {line : Text} (loaded : tag.Loaded)
    (continues : Continuation line) : (tag.addLine line).Loaded :=
  { loaded with described := loaded.described.addLine continues trivial }

/-- The lines below the header. -/
def body (tag : Tag) : List Text :=
  descriptionLines tag.description

theorem splitOn_text {tag : Tag} (noFeed : '\n' ∉ tag.headerText) :
    tag.text.splitOn '\n' = tag.headerText :: tag.body := by
  unfold text body descriptionLines
  split
  · exact List.splitOn_eq_singleton noFeed
  · rw [List.splitOn_append_cons_self, List.splitOn_eq_singleton noFeed, List.singleton_append]

theorem notMem_headerText {tag : Tag} (loaded : tag.Loaded) {char : Char}
    (label : isLabelChar char = false) (other : char ∉ [' ', '{', '}', ':', '=']) :
    char ∉ tag.headerText := by
  have inCode : char ∉ tag.code := by
    intro member
    rw [isLabelChar, loaded.codeChars char member] at label
    exact Bool.noConfusion label
  have inLabel : char ∉ tag.label := by
    intro member
    rw [loaded.labelChars char member] at label
    exact Bool.noConfusion label
  simp only [List.mem_cons, List.not_mem_nil, or_false, not_or] at other
  simp [headerText, inCode, inLabel, other]

theorem Loaded.header {tag : Tag} (loaded : tag.Loaded) : Header tag.headerText where
  noFeed := notMem_headerText loaded (by decide) (by decide)
  noEnd := by
    have kept := @Continuation.withoutLineEnd_concat
      (tag.code ++ [' ', '{'] ++ tag.label ++ ['}', ':']) '=' (by decide) (by decide)
    simpa [headerText] using kept
  marked := by
    rw [Element.isHeader_iff]
    exact ⟨tag.code ++ [' ', '{'] ++ tag.label ++ ['}'], [], by simp [headerText, headerMark]⟩

theorem headerKind_headerText (tag : Tag) : Element.headerKind tag.headerText = .tag := by
  have notClosed : Text.dropTail? ['}'] tag.headerText = none := by
    have other := @Text.dropTail?_singleton_of_ne
      (tag.code ++ [' ', '{'] ++ tag.label ++ ['}', ':']) '=' '}' (by decide)
    simpa [headerText] using other
  have marked : Text.dropTail? ['}', ':', '='] tag.headerText =
      some (tag.code ++ [' ', '{'] ++ tag.label) :=
    Text.dropTail?_eq_some_iff.mpr rfl
  rw [Element.headerKind, notClosed, marked]
  rfl

/-- The code and the label are found in front of whatever follows the header mark. -/
theorem header?_headerText_append {tag : Tag} (loaded : tag.Loaded) (rest : Text) :
    header? (tag.headerText ++ rest) = some (tag.code, tag.label) := by
  have whole : tag.headerText ++ rest =
      tag.code ++ ' ' :: ('{' :: (tag.label ++ '}' :: ':' :: '=' :: rest)) := by
    simp [headerText]
  have opened : Text.dropLead? [' ', '{'] (' ' :: '{' :: (tag.label ++ '}' :: ':' :: '=' :: rest)) =
      some (tag.label ++ '}' :: ':' :: '=' :: rest) :=
    Text.dropLead?_eq_some_iff.mpr rfl
  have closed : Text.dropLead? ['}', ':', '='] ('}' :: ':' :: '=' :: rest) = some rest :=
    Text.dropLead?_eq_some_iff.mpr rfl
  have codeStops : isCodeChar ' ' = false := by decide
  have labelStops : isLabelChar '}' = false := by decide
  rw [header?, whole, Text.takeWhile_append_cons _ loaded.codeChars codeStops,
    Text.dropWhile_append_cons _ loaded.codeChars codeStops, opened]
  simp only [Option.bind_eq_bind, Option.bind_some]
  rw [Text.takeWhile_append_cons _ loaded.labelChars labelStops,
    Text.dropWhile_append_cons _ loaded.labelChars labelStops, closed]
  exact if_pos ⟨loaded.code, loaded.label⟩

theorem header?_headerText {tag : Tag} (loaded : tag.Loaded) :
    header? tag.headerText = some (tag.code, tag.label) := by
  have alone := header?_headerText_append loaded []
  rwa [List.append_nil] at alone

theorem ofHeader_headerText {tag : Tag} (loaded : tag.Loaded) :
    ofHeader tag.headerText = .ok { tag with description := [] } := by
  simp only [ofHeader, header?_headerText loaded]

theorem foldl_addLine (tag : Tag) (lines : List Text) :
    lines.foldl addLine tag =
      { tag with description := lines.foldl Text.addLine tag.description } := by
  induction lines generalizing tag with
  | nil => rfl
  | cons line rest inductionHypothesis => exact inductionHypothesis (tag.addLine line)

/-- A tag loses the line feeds at the end of its description. -/
def reread (tag : Tag) : Tag :=
  { tag with description := tag.description.withoutFeedEnd }

theorem foldl_body {tag : Tag} (loaded : tag.Loaded) :
    (withoutBlankEnd tag.body).foldl addLine { tag with description := [] } = tag.reread := by
  rw [foldl_addLine, body, loaded.described.foldl_withoutBlankEnd, reread]

theorem text_eq (tag : Tag) : tag.text = withDescription [tag.headerText] tag.description := by
  unfold text withDescription
  split <;> simp [Text.joinWith]

theorem getLast?_text_iff {tag : Tag} (loaded : tag.Loaded) :
    tag.text.getLast? ≠ some '\n' ↔ tag.description.withoutFeedEnd = tag.description := by
  rw [text_eq]
  exact @getLast?_withDescription_iff [] _ _ (by simp [headerText]) loaded.header.noFeed

theorem text_reread_iff {tag : Tag} (loaded : tag.Loaded) :
    tag.reread.text = tag.text ↔ tag.text.getLast? ≠ some '\n' := by
  rw [getLast?_text_iff loaded, text_eq, text_eq]
  exact withDescription_inj (by simp)

end Tag

end GedcomGrammar
