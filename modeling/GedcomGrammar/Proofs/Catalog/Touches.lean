/-
This file proves that one line touches one spot of a catalog.
-/

import GedcomGrammar.Proofs.Catalog.Orderly
import GedcomGrammar.Proofs.Schema.Touches

namespace GedcomGrammar

namespace Catalog

variable {catalog next : Catalog} {schema after : Schema} {line : Text}
  {error : Option ParseError}

/-- The order keeps its beginning, and one spot may be added at its end. -/
def Grows (catalog next : Catalog) : Prop :=
  ∃ more, next.order = catalog.order ++ more ∧ more.length ≤ 1

theorem Grows.of_order (same : next.order = catalog.order) : catalog.Grows next :=
  ⟨[], by rw [same, List.append_nil], Nat.zero_le 1⟩

theorem order_extend (taken : catalog.extend line = .ok (next, error)) :
    next.order = catalog.order := by
  rw [extend] at taken
  split at taken
  · cases taken
    rfl
  · split at taken
    · exact absurd taken (by simp)
    · split at taken
      · cases taken
        rfl
      · obtain ⟨registry, -, same⟩ := map_eq_ok_iff.mp taken
        cases same
        exact catalog.order_withRegistry registry

theorem order_extendBlanks {count : Nat}
    (taken : catalog.extendBlanks count = .ok (next, error)) : next.order = catalog.order := by
  induction count generalizing catalog with
  | zero =>
      cases taken
      rfl
  | succ count inductionHypothesis =>
      rw [extendBlanks] at taken
      split at taken
      · exact absurd taken (by simp)
      · rename_i refused fault first
        cases taken
        exact order_extend first
      · rename_i extended first
        exact (inductionHypothesis taken).trans (order_extend first)

theorem order_addContinuation (taken : catalog.addContinuation line = .ok (next, error)) :
    next.order = catalog.order := by
  rw [addContinuation] at taken
  split at taken
  · exact absurd taken (by simp)
  · rename_i refused fault settled
    cases taken
    exact @order_extendBlanks { catalog with blanks := 0 } _ _ _ settled
  · rename_i extended settled
    exact (order_extend taken).trans
      (@order_extendBlanks { catalog with blanks := 0 } _ _ _ settled)

theorem grows_declare {kind : ElementKind} {content : kind.Content}
    (declared : catalog.declare kind content = .ok next) : catalog.Grows next := by
  obtain ⟨⟨registry, slot, fresh⟩, -, rfl⟩ := map_eq_ok_iff.mp declared
  cases fresh with
  | true => exact ⟨[(kind, slot)], rfl, Nat.le_refl 1⟩
  | false => exact .of_order rfl

theorem grows_addHeader (taken : catalog.addHeader line = .ok (next, error)) :
    catalog.Grows next := by
  rw [addHeader] at taken
  split at taken
  · cases taken
    exact .of_order rfl
  · obtain ⟨declared, made, same⟩ := map_eq_ok_iff.mp taken
    cases same
    exact @grows_declare { catalog with blanks := 0 } _ _ _ made

theorem grows_addLine (taken : catalog.addLine line = .ok (next, error)) :
    catalog.Grows next := by
  rw [addLine] at taken
  split at taken
  · cases taken
    refine .of_order ?_
    rw [addBlank]
    split <;> rfl
  · split at taken
    · exact grows_addHeader taken
    · exact .of_order (order_addContinuation taken)

/-- There are the same spots with the same elements. -/
structure Unchanged (catalog next : Catalog) : Prop where
  order : next.order = catalog.order
  elements : ∀ spot ∈ catalog.order, next.element spot = catalog.element spot

/-- What one line may change in the spots of a catalog. -/
structure TouchesOne (catalog : Catalog) (line : Text) (next : Catalog)
    (error : Option ParseError) : Prop where
  grows : catalog.Grows next
  keys : ∀ spot ∈ catalog.order, ∃ element further, catalog.element spot = .ok element ∧
    next.element spot = .ok further ∧ further.key = element.key
  blank : line.withoutLineEnd = [] → catalog.Unchanged next
  malformed : Element.isHeader line.withoutLineEnd = true → error ≠ none → catalog.Unchanged next
  declared : Element.isHeader line.withoutLineEnd = true → error = none → ∃ element,
    Element.ofHeader (Element.headerKind line.withoutLineEnd) line.withoutLineEnd = .ok element ∧
      next.find? element.key = .ok (some element) ∧
        ∀ spot ∈ catalog.order, (catalog.element spot).map Element.key ≠ .ok element.key →
          next.element spot = catalog.element spot
  continued : Element.isHeader line.withoutLineEnd = false → next.order = catalog.order ∧
    ∀ spot ∈ catalog.order, catalog.opened ≠ some spot → next.element spot = catalog.element spot

/-- A spot shows the element at its position in the order. -/
theorem Stored.exists_getElem? {elements : List Element} (stored : catalog.Stored elements)
    {position : Nat} {spot : Spot} (present : catalog.order[position]? = some spot) :
    ∃ element, elements[position]? = some element ∧ catalog.element spot = .ok element := by
  have shown := congrArg (fun list => list[position]?) stored.shown
  simp only [List.getElem?_map, present, Option.map_some] at shown
  obtain ⟨element, there, access⟩ := Option.map_eq_some_iff.mp shown.symm
  exact ⟨element, there, access.symm⟩

section Spots

variable (tracks : Tracks catalog schema) (follows : Tracks next after)
  (grows : catalog.Grows next)

include tracks follows grows

/-- A spot of the order has one position before and after. -/
theorem exists_position {spot : Spot} (member : spot ∈ catalog.order) :
    ∃ (position : Nat) (element further : Element), schema.elements[position]? = some element ∧
      catalog.element spot = .ok element ∧ after.elements[position]? = some further ∧
        next.element spot = .ok further := by
  obtain ⟨position, present⟩ := List.mem_iff_getElem?.mp member
  obtain ⟨more, order, -⟩ := grows
  have stays : next.order[position]? = some spot := by
    rw [order, List.getElem?_append_left (List.getElem?_eq_some_iff.mp present).1, present]
  obtain ⟨element, there, access⟩ := tracks.stored.exists_getElem? present
  obtain ⟨further, later, accessLater⟩ := follows.stored.exists_getElem? stays
  exact ⟨position, element, further, there, access, later, accessLater⟩

/-- Without a new key there is no new spot. -/
theorem order_of_keys
    (keys : after.elements.map Element.key = schema.elements.map Element.key) :
    next.order = catalog.order := by
  obtain ⟨more, order, -⟩ := grows
  have before : catalog.order.length = schema.elements.length := tracks.stored.length_eq
  have lengths : next.order.length = after.elements.length := follows.stored.length_eq
  have same : after.elements.length = schema.elements.length := by
    simpa using congrArg List.length keys
  rw [order, List.length_append] at lengths
  have empty : more = [] := List.length_eq_zero_iff.mp (by omega)
  rw [order, empty, List.append_nil]

theorem unchanged_of_elements (same : after.elements = schema.elements) :
    catalog.Unchanged next where
  order := order_of_keys tracks follows grows (by rw [same])
  elements spot member := by
    obtain ⟨position, element, further, there, access, later, accessLater⟩ :=
      exists_position tracks follows grows member
    rw [same, there, Option.some.injEq] at later
    rw [access, accessLater, later]

theorem element_of_keepsOthers {touched : Option Element.Key}
    (keeps : schema.KeepsOthers touched after) {spot : Spot} (member : spot ∈ catalog.order)
    (other : ∀ element, catalog.element spot = .ok element → touched ≠ some element.key) :
    next.element spot = catalog.element spot := by
  obtain ⟨position, element, further, there, access, later, accessLater⟩ :=
    exists_position tracks follows grows member
  rw [keeps.placed position element there (other element access), Option.some.injEq] at later
  rw [access, accessLater, later]

theorem exists_key_of_order {more : List Element.Key}
    (order : after.elements.map Element.key = schema.elements.map Element.key ++ more)
    {spot : Spot} (member : spot ∈ catalog.order) :
    ∃ element further, catalog.element spot = .ok element ∧ next.element spot = .ok further ∧
      further.key = element.key := by
  obtain ⟨position, element, further, there, access, later, accessLater⟩ :=
    exists_position tracks follows grows member
  have keys := congrArg (fun list => list[position]?) order
  have within : position < (schema.elements.map Element.key).length := by
    rw [List.length_map]
    exact (List.getElem?_eq_some_iff.mp there).1
  simp only [List.getElem?_append_left within, List.getElem?_map, there, later, Option.map_some,
    Option.some.injEq] at keys
  exact ⟨element, further, access, accessLater, keys⟩

/-- What one line may change in a schema, it may change in the spots that show its elements. -/
theorem touchesOne_of_tracks (touches : schema.TouchesOne line after error) :
    catalog.TouchesOne line next error where
  grows := grows
  keys spot member := by
    obtain ⟨more, order, -⟩ := touches.order
    exact exists_key_of_order tracks follows grows order member
  blank empty := unchanged_of_elements tracks follows grows (touches.blank empty)
  malformed header refused :=
    unchanged_of_elements tracks follows grows (touches.malformed header refused)
  declared header accepted := by
    obtain ⟨element, made, found, keeps⟩ := touches.declared header accepted
    refine ⟨element, made, ?_, fun spot member other => ?_⟩
    · rw [follows.stored.find?_eq]
      exact congrArg Except.ok found
    · refine element_of_keepsOthers tracks follows grows keeps member fun held access same => ?_
      rw [access] at other
      exact other (congrArg Except.ok (Option.some.inj same).symm)
  continued noHeader := by
    obtain ⟨keys, keeps⟩ := touches.continued noHeader
    refine ⟨order_of_keys tracks follows grows keys, fun spot member other => ?_⟩
    refine element_of_keepsOthers tracks follows grows keeps member fun held access same => ?_
    rcases tracks.opened_cases with ⟨-, closed⟩ | ⟨kind, slot, content, opened, present, isOpen⟩
    · exact absurd (closed.symm.trans same) (by simp)
    · have key := Option.some.inj (isOpen.opened.symm.trans same)
      have accessOpen := element_eq_ok_iff.mpr ⟨content, present, rfl⟩
      exact other (tracks.stored.spot_of_key accessOpen access key ▸ opened)

end Spots

/--
After any lines and texts, refused or not, one more line touches one element at most.
So it is in the spots of the catalog and in the elements of the schema, whose keys stay distinct.
-/
theorem touchesOne_takeAll (depthLimit : Nat) (feeds : List Feed) (line : Text) :
    ∃ catalog next, ({ depthLimit } : Catalog).takeAll feeds =
        .ok (catalog, (({ depthLimit } : Schema).takeAll feeds).2) ∧
      catalog.addLine line =
        .ok (next, ((({ depthLimit } : Schema).takeAll feeds).1.addLine line).2) ∧
      catalog.TouchesOne line next ((({ depthLimit } : Schema).takeAll feeds).1.addLine line).2 ∧
      (({ depthLimit } : Schema).takeAll feeds).1.TouchesOne line
        ((({ depthLimit } : Schema).takeAll feeds).1.addLine line).1
        ((({ depthLimit } : Schema).takeAll feeds).1.addLine line).2 ∧
      (((({ depthLimit } : Schema).takeAll feeds).1.addLine line).1.elements.map
        Element.key).Nodup := by
  obtain ⟨catalog, takenAll, tracks⟩ := (tracks_empty depthLimit).takeAll feeds
  obtain ⟨next, taken, follows⟩ := tracks.addLine line
  have touches := (({ depthLimit } : Schema).takeAll feeds).1.touchesOne line
  exact ⟨catalog, next, takenAll, taken,
    touchesOne_of_tracks tracks follows (grows_addLine taken) touches, touches,
    follows.stored.nodup_keys⟩

end Catalog

end GedcomGrammar
