/-
This file proves what the items of a line leave in the row that is read from them.
-/

import GedcomGrammar.Row.Reader
import GedcomGrammar.Proofs.Results
import GedcomGrammar.Proofs.Text.Lines

namespace GedcomGrammar

/-- This mark stands in header lines and in no other line. -/
def headerMark : Text := [':', '=']

/-- A word is part of a row: it has no space, no line feed and no header mark. -/
structure Word (text : Text) : Prop where
  noSpace : ' ' ∉ text
  noFeed : '\n' ∉ text
  noMark : ¬headerMark <:+: text

theorem Word.of_infix {text part : Text} (word : Word text) (contained : part <:+: text) :
    Word part where
  noSpace member := word.noSpace (contained.subset member)
  noFeed member := word.noFeed (contained.subset member)
  noMark marked := word.noMark (marked.trans contained)

/-- The mark ends with an equals sign, so text without one has no mark. -/
theorem Word.of_notMem {text : Text} (noSpace : ' ' ∉ text) (noFeed : '\n' ∉ text)
    (noEquals : '=' ∉ text) : Word text :=
  ⟨noSpace, noFeed, fun marked => noEquals (marked.subset (by decide))⟩

/-- A delimiter is neither white space nor part of the header mark. -/
theorem Word.cons {text : Text} (word : Word text) (char : Char)
    (delimiter : char ∉ [' ', '\n', ':', '=']) : Word (char :: text) := by
  simp only [List.mem_cons, List.not_mem_nil, or_false, not_or] at delimiter
  refine ⟨?_, ?_, fun marked => ?_⟩
  · simpa using ⟨Ne.symm delimiter.1, word.noSpace⟩
  · simpa using ⟨Ne.symm delimiter.2.1, word.noFeed⟩
  · have absent : char ∉ headerMark := by simpa [headerMark] using delimiter.2.2
    rcases (@Text.infix_append_cons_iff _ [] _ _ (by decide) absent).mp marked with no | yes
    · exact absurd no (by decide)
    · exact word.noMark yes

theorem Word.concat {text : Text} (word : Word text) (char : Char)
    (delimiter : char ∉ [' ', '\n', ':', '=']) : Word (text ++ [char]) := by
  simp only [List.mem_cons, List.not_mem_nil, or_false, not_or] at delimiter
  refine ⟨?_, ?_, fun marked => ?_⟩
  · simpa using ⟨word.noSpace, Ne.symm delimiter.1⟩
  · simpa using ⟨word.noFeed, Ne.symm delimiter.2.1⟩
  · have absent : char ∉ headerMark := by simpa [headerMark] using delimiter.2.2
    rcases (@Text.infix_append_cons_iff _ _ [] _ (by decide) absent).mp marked with yes | no
    · exact word.noMark yes
    · exact absurd no (by decide)

/--
A class of texts that rows are made of: all words, and no text with a space.
Delimiters may be removed from its texts and put around them again.
-/
class Fair (fair : Text → Prop) : Prop where
  word {text : Text} : Word text → fair text
  noSpace {text : Text} : fair text → ' ' ∉ text
  part {text part : Text} : fair text → part <:+: text → fair part
  cons {text : Text} : fair text → ∀ char, char ∉ [' ', '\n', ':', '='] → fair (char :: text)
  concat {text : Text} : fair text → ∀ char, char ∉ [' ', '\n', ':', '='] → fair (text ++ [char])

instance : Fair Word where
  word := id
  noSpace word := word.noSpace
  part word contained := word.of_infix contained
  cons word := word.cons
  concat word := word.concat

/-- The items of a line have no space, whatever else they hold. -/
def Unspaced (text : Text) : Prop :=
  ' ' ∉ text

instance : Fair Unspaced where
  word word := word.noSpace
  noSpace unspaced := unspaced
  part unspaced contained member := unspaced (contained.subset member)
  cons unspaced char delimiter := by
    simp only [List.mem_cons, not_or] at delimiter
    simpa [Unspaced] using ⟨Ne.symm delimiter.1, unspaced⟩
  concat unspaced char delimiter := by
    simp only [List.mem_cons, not_or] at delimiter
    simpa [Unspaced] using ⟨unspaced, Ne.symm delimiter.1⟩

namespace Row

variable {fair : Text → Prop} [Fair fair]

/-- A name stands between angles. -/
structure Name (fair : Text → Prop) (text : Text) : Prop where
  fair : fair text
  trimmed : Text.Trimmed Item.isAngle text

/-- The type of a pointer together with its word, if it has one. -/
def pointerInner (prefixed : Bool) (type : Text) : Text :=
  (if prefixed then xrefWord else []) ++ type

/-- A pointer that is not spelled with the word does not begin with it. -/
structure Pointer (fair : Text → Prop) (prefixed : Bool) (type : Text) : Prop where
  fair : fair (pointerInner prefixed type)
  trimmed : Text.Trimmed Item.isPointerMark (pointerInner prefixed type)
  unprefixed : prefixed = false → ¬xrefWord <+: type

/-- Tags are the parts of one text between bars. -/
structure TagNames (fair : Text → Prop) (names : List Text) : Prop where
  nonempty : names ≠ []
  noBar : ∀ name ∈ names, '|' ∉ name
  fair : fair (Text.joinWith ['|'] names)
  trimmed : Text.Trimmed Item.isBracket (Text.joinWith ['|'] names)

namespace Item

def Legible (fair : Text → Prop) : Item → Prop
  | .substructure label => Name fair label
  | .value name => Name fair name
  | .pointer type prefixed => Pointer fair prefixed type
  | .tags names => TagNames fair names

theorem name_trim {text : Text} (taken : fair text) : Name fair (text.trim isAngle) :=
  ⟨Fair.part taken (Text.trim_infix text), Text.trimmed_trim text⟩

theorem legible_ofPointer {text : Text} (taken : fair text) : (ofPointer text).Legible fair := by
  have inner : fair (text.trim isPointerMark) := Fair.part taken (Text.trim_infix text)
  have trimmed : Text.Trimmed isPointerMark _ := Text.trimmed_trim text
  unfold ofPointer
  dsimp only
  split
  · rename_i type split
    rw [Text.dropLead?_eq_some_iff] at split
    rw [split] at inner trimmed
    exact ⟨inner, trimmed, by simp⟩
  · rename_i split
    exact ⟨inner, trimmed, fun _ => Text.isPrefixOf?_eq_none_iff.mp split⟩

/-- Each item of a line keeps the text that it was read from, without its delimiters. -/
theorem legible_ofText {text : Text} (taken : fair text) : (ofText text).Legible fair := by
  unfold ofText
  split
  · exact name_trim taken
  · exact name_trim taken
  · exact legible_ofPointer taken
  · have inner : fair (text.trim isBracket) := Fair.part taken (Text.trim_infix text)
    have joined := Text.joinWith_splitOn '|' (text.trim isBracket)
    refine ⟨List.splitOn_ne_nil _ _, fun name member => Text.notMem_of_mem_splitOn member, ?_, ?_⟩
    · rw [joined]
      exact inner
    · rw [joined]
      exact Text.trimmed_trim text

end Item

namespace Draft

/-- A draft holds only what legible items gave it. -/
structure Legible (fair : Text → Prop) (draft : Draft) : Prop where
  tags : draft.tags ≠ [] → TagNames fair draft.tags
  value : ∀ name, draft.value = some name → Name fair name
  pointer : ∀ type prefixed, draft.pointer = some (type, prefixed) → Pointer fair prefixed type

omit [Fair fair]

theorem legible_empty : Legible fair {} :=
  ⟨by simp, by simp, by simp⟩

theorem legible_add {draft extended : Draft} {item : Item} (legible : draft.Legible fair)
    (clear : item.Legible fair) (added : draft.add item = some extended) :
    extended.Legible fair := by
  cases item with
  | substructure label => simp [add] at added
  | value name =>
      simp only [add, Option.ite_none_left_eq_some, Option.some.injEq] at added
      rw [← added.2]
      exact ⟨legible.tags, fun _ same => Option.some.inj same ▸ clear, legible.pointer⟩
  | pointer type prefixed =>
      simp only [add, Option.ite_none_left_eq_some, Option.some.injEq] at added
      rw [← added.2]
      refine ⟨legible.tags, legible.value, fun other spelled same => ?_⟩
      simp only [Option.some.injEq, Prod.mk.injEq] at same
      rw [← same.1, ← same.2]
      exact clear
  | tags names =>
      simp only [add, Option.some.injEq] at added
      rw [← added]
      exact ⟨fun _ => clear, legible.value, legible.pointer⟩

theorem legible_foldlM {draft extended : Draft} {items : List Item} (legible : draft.Legible fair)
    (clear : ∀ item ∈ items, item.Legible fair) (added : items.foldlM add draft = some extended) :
    extended.Legible fair := by
  induction items generalizing draft with
  | nil =>
      simp only [List.foldlM_nil, Option.pure_def, Option.some.injEq] at added
      exact added ▸ legible
  | cons first rest inductionHypothesis =>
      simp only [List.foldlM_cons, Option.bind_eq_bind, Option.bind_eq_some_iff] at added
      obtain ⟨next, one, others⟩ := added
      exact inductionHypothesis (legible_add legible (clear first List.mem_cons_self) one)
        (fun item member => clear item (List.mem_cons_of_mem first member)) others

end Draft

namespace Body

/-- A body read from legible items, with the spelling of its pointer. -/
def Legible (fair : Text → Prop) (prefixed : Bool) : Body → Prop
  | .noValue tags => TagNames fair tags.toList ∧ prefixed = true
  | .substructure label => Name fair label ∧ prefixed = true
  | .newRecord xref tags => Pointer fair prefixed xref ∧ TagNames fair tags.toList
  | .newRecordWithValue xref tags value =>
      Pointer fair prefixed xref ∧ TagNames fair tags.toList ∧ Name fair value
  | .pointerValue tags target => TagNames fair tags.toList ∧ Pointer fair prefixed target
  | .primitiveValue tags value => TagNames fair tags.toList ∧ Name fair value ∧ prefixed = true

omit [Fair fair]

/-- A facet error is the answer whenever a body lacks the tags that its kind needs. -/
theorem ofFacets_nil_ne_ok {kind : Kind} (tagged : kind.has .tags = true) (xref value : Option Text)
    (body : Body) : ofFacets kind xref [] value ≠ .ok body := by
  cases kind <;> cases xref <;> cases value <;> simp_all [ofFacets, Tags.ofList?, Kind.has]

/-- Neither a record nor another row is made without tags. -/
theorem record_ne_ok {draft : Draft} (untagged : draft.tags = []) (xref : Text) (body : Body) :
    draft.record xref ≠ some (.ok body) := by
  unfold Draft.record
  rw [untagged]
  split
  · simp
  · exact fun made => ofFacets_nil_ne_ok rfl _ _ _ (Option.some.inj made)
  · exact fun made => ofFacets_nil_ne_ok rfl _ _ _ (Option.some.inj made)

theorem member_ne_ok {draft : Draft} (untagged : draft.tags = []) (body : Body) :
    draft.member ≠ .ok body := by
  unfold Draft.member
  rw [untagged]
  split
  · exact ofFacets_nil_ne_ok rfl _ _ _
  · exact ofFacets_nil_ne_ok rfl _ _ _
  · exact ofFacets_nil_ne_ok rfl _ _ _

theorem legible_of_record {draft : Draft} {xref : Text} {prefixed : Bool} {body : Body}
    (legible : draft.Legible fair) (pointer : Pointer fair prefixed xref)
    (recorded : draft.record xref = some (.ok body)) : body.Legible fair prefixed := by
  obtain ⟨names, value, target⟩ := draft
  cases target with
  | some target => simp [Draft.record] at recorded
  | none =>
      cases names with
      | nil => exact absurd recorded (record_ne_ok rfl xref body)
      | cons first others =>
          have tagged := legible.tags (by simp)
          cases value with
          | none =>
              simp only [Draft.record, ofFacets, Tags.ofList?, Option.some.injEq,
                Except.ok.injEq] at recorded
              rw [← recorded]
              exact ⟨pointer, tagged⟩
          | some value =>
              simp only [Draft.record, ofFacets, Tags.ofList?, Option.some.injEq,
                Except.ok.injEq] at recorded
              rw [← recorded]
              exact ⟨pointer, tagged, legible.value value rfl⟩

theorem legible_of_member {draft : Draft} {body : Body} (legible : draft.Legible fair)
    (made : draft.member = .ok body) : body.Legible fair draft.prefixed := by
  obtain ⟨names, value, target⟩ := draft
  cases names with
  | nil => exact absurd made (member_ne_ok rfl body)
  | cons first others =>
      have tagged := legible.tags (by simp)
      cases target with
      | some target =>
          simp only [Draft.member, ofFacets, Tags.ofList?, Except.ok.injEq] at made
          rw [← made]
          exact ⟨tagged, legible.pointer target.1 target.2 rfl⟩
      | none =>
          cases value with
          | none =>
              simp only [Draft.member, ofFacets, Tags.ofList?, Except.ok.injEq] at made
              rw [← made]
              exact ⟨tagged, rfl⟩
          | some value =>
              simp only [Draft.member, ofFacets, Tags.ofList?, Except.ok.injEq] at made
              rw [← made]
              exact ⟨tagged, legible.value value rfl, rfl⟩

theorem legible_of_ofItems {items : List Item} {prefixed : Bool} {body : Body}
    (clear : ∀ item ∈ items, item.Legible fair)
    (made : ofItems items = some (.ok (body, prefixed))) : body.Legible fair prefixed := by
  unfold ofItems at made
  split at made
  · split at made
    · simp only [Option.some.injEq, Except.ok.injEq, Prod.mk.injEq] at made
      rw [← made.1, ← made.2]
      exact ⟨clear _ List.mem_cons_self, rfl⟩
    · simp at made
  · split at made
    · rename_i xref spelled rest _
      simp only [Option.bind_eq_bind, Option.bind_eq_some_iff, Option.some.injEq] at made
      obtain ⟨draft, drafted, outcome, recorded, same⟩ := made
      obtain ⟨found, rfl, pair⟩ := map_eq_ok_iff.mp same
      rw [Prod.mk.injEq] at pair
      rw [← pair.1, ← pair.2]
      have legible := Draft.legible_foldlM Draft.legible_empty
        (fun item member => clear item (List.mem_cons_of_mem _ member)) drafted
      exact legible_of_record legible (clear _ List.mem_cons_self) recorded
    · simp only [Option.bind_eq_bind, Option.bind_eq_some_iff, Option.some.injEq] at made
      obtain ⟨draft, drafted, same⟩ := made
      obtain ⟨found, member, pair⟩ := map_eq_ok_iff.mp same
      rw [Prod.mk.injEq] at pair
      rw [← pair.1, ← pair.2]
      have legible := Draft.legible_foldlM Draft.legible_empty clear drafted
      exact legible_of_member legible member

end Body

/-- A row that was read from the items of a line, which are of a class. -/
def LegibleIn (fair : Text → Prop) (row : Row) : Prop :=
  row.body.Legible fair row.prefixed

/-- A row that was read from a line of a grammar. -/
abbrev Legible (row : Row) : Prop :=
  row.LegibleIn Word

theorem legible_of_ofItems {line first last : Text} {middle : List Text} {row : Row}
    (taken : ∀ item ∈ middle, fair item) (made : ofItems line first middle last = .ok row) :
    row.LegibleIn fair := by
  have clear : ∀ item ∈ middle.map Item.ofText, item.Legible fair := by
    intro item member
    obtain ⟨text, inMiddle, rfl⟩ := List.mem_map.mp member
    exact Item.legible_ofText (taken text inMiddle)
  unfold ofItems at made
  split at made
  · exact absurd made (by simp)
  · split at made
    · exact absurd made (by simp)
    · split at made
      · exact absurd made (by simp)
      · exact absurd made (by simp)
      · rename_i body prefixed read
        rw [Except.ok.injEq] at made
        rw [← made]
        exact Body.legible_of_ofItems clear read

/-- Every row is legible in a class that all items of its line are of. -/
theorem legibleIn_of_ofLine {line : Text} {row : Row} (taken : ∀ item ∈ line.splitOn ' ', fair item)
    (read : ofLine line = .ok row) : row.LegibleIn fair := by
  unfold ofLine at read
  split at read
  · rename_i first second third others split
    rw [split] at taken
    refine legible_of_ofItems (fun item member => taken item ?_) read
    exact List.mem_cons_of_mem first (List.dropLast_subset _ member)
  · exact absurd read (by simp)

/-- Every row of a line without line feed and header mark is legible. -/
theorem legible_of_ofLine {line : Text} {row : Row} (noFeed : '\n' ∉ line)
    (noMark : ¬headerMark <:+: line) (read : ofLine line = .ok row) : row.Legible := by
  refine legibleIn_of_ofLine (fun item member => ?_) read
  exact
    { noSpace := Text.notMem_of_mem_splitOn member
      noFeed := fun feed => noFeed ((Text.infix_of_mem_splitOn member).subset feed)
      noMark := fun marked => noMark (marked.trans (Text.infix_of_mem_splitOn member)) }

end Row

end GedcomGrammar
