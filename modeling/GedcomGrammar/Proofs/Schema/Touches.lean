/-
This file proves that one line touches one element.
-/

import GedcomGrammar.Proofs.Keyed.Insertions
import GedcomGrammar.Proofs.Schema.Blocks

namespace GedcomGrammar.Schema

variable {schema middle after : Schema} {line : Text}

/-- Elements under other keys stay what they are and where they are. -/
structure KeepsOthers (schema : Schema) (touched : Option Element.Key) (after : Schema) : Prop where
  placed : ∀ (position : Nat) (element : Element), schema.elements[position]? = some element →
    touched ≠ some element.key → after.elements[position]? = some element
  found : ∀ key, touched ≠ some key → after.find? key = schema.find? key

section KeepsOthers

variable {touched : Option Element.Key}

theorem KeepsOthers.of_elements (same : after.elements = schema.elements) :
    schema.KeepsOthers touched after where
  placed position element present _ := by rw [same, present]
  found key _ := by rw [find?, same, find?]

theorem KeepsOthers.trans (first : schema.KeepsOthers touched middle)
    (second : middle.KeepsOthers touched after) : schema.KeepsOthers touched after where
  placed position element present other :=
    second.placed position element (first.placed position element present other) other
  found key other := (second.found key other).trans (first.found key other)

theorem keepsOthers_insert (schema : Schema) (element : Element) :
    schema.KeepsOthers (some element.key) (schema.insert element) where
  placed _ _ present other :=
    Keyed.getElem?_insert_of_ne present fun same => other (congrArg some same.symm)
  found key other := Keyed.find?_insert_of_ne Element.key element schema.elements key fun same =>
    other (congrArg some same)

end KeepsOthers

/-- Only the open element changes, and no key does. -/
structure Lengthens (schema after : Schema) : Prop where
  opened : after.opened = schema.opened
  order : after.elements.map Element.key = schema.elements.map Element.key
  others : schema.KeepsOthers schema.opened after

theorem Lengthens.of_elements (opened : after.opened = schema.opened)
    (same : after.elements = schema.elements) : schema.Lengthens after :=
  ⟨opened, by rw [same], .of_elements same⟩

theorem Lengthens.trans (first : schema.Lengthens middle) (second : middle.Lengthens after) :
    schema.Lengthens after where
  opened := second.opened.trans first.opened
  order := second.order.trans first.order
  others := first.others.trans (first.opened ▸ second.others)

theorem lengthens_extend (taken : schema.extend line = .ok after) : schema.Lengthens after := by
  obtain ⟨key, element, longer, opened, found, added, rfl⟩ := extend_eq_ok_iff.mp taken
  have own : longer.key = key := (Element.key_addLine added).trans (key_of_find? found)
  have declared : longer.key ∈ schema.elements.map Element.key := by
    rw [Element.key_addLine added]
    exact List.mem_map_of_mem (mem_of_find? found)
  refine ⟨rfl, (Keyed.map_insert Element.key longer schema.elements).trans (if_pos declared), ?_⟩
  rw [opened, ← own]
  exact schema.keepsOthers_insert longer

theorem lengthens_settleBlanks (schema : Schema) : schema.Lengthens schema.settleBlanks := by
  refine @settleBlanks_keeps schema schema.Lengthens (.of_elements rfl rfl) ?_ ?_
  · intro held lengthens
    rcases held.extendBlank_cases with unchanged | taken
    · rwa [unchanged]
    · exact lengthens.trans (lengthens_extend taken)
  · intro held lengthens
    exact lengthens.trans (.of_elements rfl rfl)

/-- What one line may change, by its kind and by whether it is accepted. -/
structure TouchesOne (schema : Schema) (line : Text) (after : Schema) (error : Option ParseError) :
    Prop where
  order : ∃ more, after.elements.map Element.key = schema.elements.map Element.key ++ more ∧
    more.length ≤ 1
  blank : line.withoutLineEnd = [] → after.elements = schema.elements
  malformed : Element.isHeader line.withoutLineEnd = true → error ≠ none →
    after.elements = schema.elements
  declared : Element.isHeader line.withoutLineEnd = true → error = none → ∃ element,
    Element.ofHeader (Element.headerKind line.withoutLineEnd) line.withoutLineEnd = .ok element ∧
      after.find? element.key = some element ∧ schema.KeepsOthers (some element.key) after
  continued : Element.isHeader line.withoutLineEnd = false →
    after.elements.map Element.key = schema.elements.map Element.key ∧
      schema.KeepsOthers schema.opened after

theorem TouchesOne.of_elements {error : Option ParseError} (same : after.elements = schema.elements)
    (undeclared : Element.isHeader line.withoutLineEnd = true → error ≠ none) :
    schema.TouchesOne line after error where
  order := ⟨[], by rw [same, List.append_nil], Nat.zero_le 1⟩
  blank _ := same
  malformed _ _ := same
  declared header accepted := absurd accepted (undeclared header)
  continued _ := ⟨by rw [same], .of_elements same⟩

theorem TouchesOne.of_lengthens {error : Option ParseError} (lengthens : schema.Lengthens after)
    (present : line.withoutLineEnd ≠ []) (noHeader : Element.isHeader line.withoutLineEnd = false) :
    schema.TouchesOne line after error where
  order := ⟨[], by rw [lengthens.order, List.append_nil], Nat.zero_le 1⟩
  blank empty := absurd empty present
  malformed header := absurd (noHeader.symm.trans header) (by simp)
  declared header := absurd (noHeader.symm.trans header) (by simp)
  continued _ := ⟨lengthens.order, lengthens.others⟩

theorem touchesOne_insert {element : Element}
    (header : Element.isHeader line.withoutLineEnd = true)
    (made : Element.ofHeader (Element.headerKind line.withoutLineEnd) line.withoutLineEnd =
      .ok element) (same : after.elements = (schema.insert element).elements) :
    schema.TouchesOne line after none where
  order := by
    have keys := Keyed.map_insert Element.key element schema.elements
    rw [same, Schema.insert, keys]
    split
    · exact ⟨[], (List.append_nil _).symm, Nat.zero_le 1⟩
    · exact ⟨[element.key], rfl, Nat.le_refl 1⟩
  blank empty := absurd (empty ▸ header) (by decide)
  malformed _ refused := absurd rfl refused
  declared _ _ := by
    refine ⟨element, made, ?_, (schema.keepsOthers_insert element).trans (.of_elements same)⟩
    rw [find?, same]
    exact Keyed.find?_insert_self Element.key element schema.elements
  continued noHeader := absurd (noHeader.symm.trans header) (by simp)

/-- From any state, one line touches one element at most. -/
theorem touchesOne (schema : Schema) (line : Text) :
    schema.TouchesOne line (schema.addLine line).1 (schema.addLine line).2 := by
  have outcome := schema.outcome_addLine line
  generalize schema.addLine line = result at outcome
  cases outcome with
  | blank empty =>
      have same : schema.addBlank.elements = schema.elements := by
        rw [addBlank]
        split <;> rfl
      exact .of_elements same fun header => absurd (empty ▸ header) (by decide)
  | malformed error header unmade => exact .of_elements rfl fun _ => by simp
  | declared element header made => exact touchesOne_insert header made rfl
  | refused error present noHeader untaken =>
      exact .of_lengthens schema.lengthens_settleBlanks present noHeader
  | extended longer present noHeader taken =>
      exact .of_lengthens (schema.lengthens_settleBlanks.trans (lengthens_extend taken)) present
        noHeader

end GedcomGrammar.Schema
