/-
This file proves how alternatives and their text fit together, and which kinds alternatives have.
-/

import GedcomGrammar.Alternatives
import GedcomGrammar.Proofs.Component.Kinds
import GedcomGrammar.Proofs.Results
import GedcomGrammar.Proofs.Text.Lines

namespace GedcomGrammar.Alternatives

variable {alternatives : Alternatives}

@[simp] theorem text_ofText (body : Text) : (ofText body).text = body :=
  Text.joinWith_splitOn '|' body

theorem notMem_of_mem_ofText {body definition : Text}
    (listed : definition ∈ (ofText body).definitions) : '|' ∉ definition :=
  Text.notMem_of_mem_splitOn listed

/-- A text gives back the alternatives that it was written from unless one of them has a bar. -/
theorem ofText_text_eq_self_iff :
    ofText alternatives.text = alternatives ↔
      ∀ definition ∈ alternatives.definitions, '|' ∉ definition := by
  constructor
  · intro same definition listed
    rw [← same] at listed
    exact notMem_of_mem_ofText listed
  · intro noBar
    exact Alternatives.ext (Text.splitOn_joinWith_of_notMem alternatives.nonempty noBar)

/-- A text without bars is written from one alternative, which has no bars either. -/
theorem definitions_of_notMem_text (noBar : '|' ∉ alternatives.text) :
    alternatives.definitions = [alternatives.text] := by
  obtain ⟨definitions, nonempty⟩ := alternatives
  obtain ⟨first, rest, rfl⟩ := List.exists_cons_of_ne_nil nonempty
  by_cases single : rest = []
  · simp [single, text, Text.joinWith]
  · refine absurd ?_ noBar
    rw [text, Text.joinWith, List.intercalate_cons_of_ne_nil single]
    simp

/-- Only the default is written like the default. -/
theorem isDefault_iff : alternatives.isDefault = true ↔ alternatives = default := by
  constructor
  · intro same
    rw [isDefault, beq_iff_eq] at same
    have noBar : '|' ∉ alternatives.text := by
      rw [same]
      decide
    apply Alternatives.ext
    rw [definitions_of_notMem_text noBar, same]
    rfl
  · rintro rfl
    rfl

section Kinds

open Component

/-- A definition can be taken apart, and one of its components is of the kind. -/
def HasKind (definition : Text) (kind : Kind) : Prop :=
  ∃ components, ofDefinition definition = .ok components ∧
    ∃ component ∈ components, component.kind = kind

/-- The fault of the first definition that cannot be taken apart. -/
def FirstFault (definitions : List Text) (fault : Unmatched) : Prop :=
  ∃ before definition after, definitions = before ++ definition :: after ∧
    (∀ earlier ∈ before, ∃ components, ofDefinition earlier = .ok components) ∧
      ofDefinition definition = .error fault

/-- The kinds of all alternatives are united once each of them is taken apart. -/
theorem kinds_eq (alternatives : Alternatives) :
    alternatives.kinds =
      (alternatives.definitions.mapM definitionKinds).map fun sets => sets.foldl KindSet.union {} :=
  foldlM_map definitionKinds KindSet.union alternatives.definitions {}

theorem exists_definitionKinds_iff {definition : Text} :
    (∃ set, definitionKinds definition = .ok set) ↔
      ∃ components, ofDefinition definition = .ok components :=
  exists_map_eq_ok_iff

theorem contains_iff_of_definitionKinds {definition : Text} {set : KindSet} {kind : Kind}
    (made : definitionKinds definition = .ok set) :
    set.contains kind = true ↔ HasKind definition kind := by
  obtain ⟨components, read, rfl⟩ := map_eq_ok_iff.mp made
  rw [contains_kinds_iff, HasKind, read]
  simp

theorem kinds_eq_error_iff {fault : Unmatched} :
    alternatives.kinds = .error fault ↔ FirstFault alternatives.definitions fault := by
  rw [kinds_eq, map_eq_error_iff, mapM_eq_error_iff]
  simp only [definitionKinds, exists_map_eq_ok_iff, map_eq_error_iff, FirstFault]

theorem exists_kinds_iff :
    (∃ found, alternatives.kinds = .ok found) ↔
      ∀ definition ∈ alternatives.definitions,
        ∃ components, ofDefinition definition = .ok components := by
  rw [kinds_eq, exists_map_eq_ok_iff, exists_mapM_eq_ok_iff]
  simp only [exists_definitionKinds_iff]

/-- Every set that is united comes from an alternative, and every alternative has such a set. -/
theorem contains_iff_of_kinds {found : KindSet} (read : alternatives.kinds = .ok found)
    (kind : Kind) :
    found.contains kind = true ↔
      ∃ definition ∈ alternatives.definitions, HasKind definition kind := by
  rw [kinds_eq] at read
  obtain ⟨sets, made, rfl⟩ := map_eq_ok_iff.mp read
  obtain ⟨fromDefinition, toSet⟩ := exists_of_mapM_eq_ok made
  rw [KindSet.contains_foldl_union_iff]
  constructor
  · rintro ⟨set, united, contained⟩
    obtain ⟨definition, listed, madeSet⟩ := fromDefinition set united
    exact ⟨definition, listed, (contains_iff_of_definitionKinds madeSet).mp contained⟩
  · rintro ⟨definition, listed, occurs⟩
    obtain ⟨set, united, madeSet⟩ := toSet definition listed
    exact ⟨set, united, (contains_iff_of_definitionKinds madeSet).mpr occurs⟩

theorem kinds_eq_ok_iff {found : KindSet} :
    alternatives.kinds = .ok found ↔
      (∀ definition ∈ alternatives.definitions,
        ∃ components, ofDefinition definition = .ok components) ∧
        ∀ kind, found.contains kind = true ↔
          ∃ definition ∈ alternatives.definitions, HasKind definition kind := by
  constructor
  · intro read
    exact ⟨exists_kinds_iff.mp ⟨found, read⟩, contains_iff_of_kinds read⟩
  · rintro ⟨readable, occurs⟩
    obtain ⟨other, read⟩ := exists_kinds_iff.mpr readable
    rw [read, Except.ok.injEq]
    refine KindSet.ext_contains fun kind => ?_
    rw [Bool.eq_iff_iff, contains_iff_of_kinds read, occurs]

end Kinds

/--
Bars separate the alternatives of a text and join them to it again, and only the default is taken
for the default. The kinds are those of all components, or the first fault stands for them.
-/
theorem separated_joined_classified :
    (∀ body : Text, (ofText body).definitions ≠ [] ∧
      (∀ definition ∈ (ofText body).definitions, '|' ∉ definition) ∧ (ofText body).text = body) ∧
      ∀ alternatives : Alternatives,
        (ofText alternatives.text = alternatives ↔
          ∀ definition ∈ alternatives.definitions, '|' ∉ definition) ∧
        (alternatives.isDefault = true ↔ alternatives.definitions = ["<TEXT>".toList]) ∧
        (∀ fault, alternatives.kinds = .error fault ↔
          FirstFault alternatives.definitions fault) ∧
        ∀ found, alternatives.kinds = .ok found ↔
          (∀ definition ∈ alternatives.definitions,
            ∃ components, Component.ofDefinition definition = .ok components) ∧
            ∀ kind, found.contains kind = true ↔
              ∃ definition ∈ alternatives.definitions, HasKind definition kind := by
  refine ⟨fun body => ⟨(ofText body).nonempty, fun _ => notMem_of_mem_ofText, text_ofText body⟩,
    fun alternatives => ⟨ofText_text_eq_self_iff, ?_, fun _ => kinds_eq_error_iff,
      fun _ => kinds_eq_ok_iff⟩⟩
  rw [isDefault_iff, Alternatives.ext_iff]
  rfl

/-- An empty alternative has no kind, and a fault hides those behind it. -/
example :
    (ofText "<NUMBER>||\x7bY\x7d old".toList).kinds =
        .ok { primitives := true, terms := true, literals := true } ∧
      (ofText "A|<B|\x7bC".toList).kinds = .error ⟨0, "<B".toList⟩ := by
  decide +kernel

end GedcomGrammar.Alternatives
