/-
This file proves that the registries of a catalog and its order keep one list of elements.
-/

import GedcomGrammar.Catalog
import GedcomGrammar.Proofs.Keyed.Insertions
import GedcomGrammar.Proofs.Registry
import GedcomGrammar.Proofs.Results

namespace GedcomGrammar

namespace ElementKind

variable (kind : ElementKind) (content : kind.Content)

theorem key_element : (kind.element content).key = (kind, kind.identifier content) := by
  cases kind <;> rfl

theorem ofHeader_element (line : Text) :
    Element.ofHeader kind line = (kind.ofHeader line).map kind.element := by
  cases kind <;> rfl

theorem addLine_element (line : Text) :
    (kind.element content).addLine line = (kind.addLine content line).map kind.element := by
  cases kind <;> rfl

end ElementKind

namespace Catalog

section Registries

variable (catalog : Catalog) {kind : ElementKind} (registry : Registry kind.Content)

theorem registry_withRegistry_self : (catalog.withRegistry kind registry).registry kind = registry := by
  cases kind <;> rfl

theorem registry_withRegistry_of_ne {other : ElementKind} (different : other ≠ kind) :
    (catalog.withRegistry kind registry).registry other = catalog.registry other := by
  cases kind <;> cases other <;> first | rfl | exact absurd rfl different

/-- What holds of the new registry and of the others holds of all. -/
theorem forall_withRegistry {Holds : (kind : ElementKind) → Registry kind.Content → Prop}
    (own : Holds kind registry)
    (others : ∀ other, other ≠ kind → Holds other (catalog.registry other)) (other : ElementKind) :
    Holds other ((catalog.withRegistry kind registry).registry other) := by
  by_cases same : other = kind
  · subst same
    rw [registry_withRegistry_self]
    exact own
  · rw [catalog.registry_withRegistry_of_ne registry same]
    exact others other same

@[simp] theorem order_withRegistry :
    (catalog.withRegistry kind registry).order = catalog.order := by
  cases kind <;> rfl

@[simp] theorem opened_withRegistry :
    (catalog.withRegistry kind registry).opened = catalog.opened := by
  cases kind <;> rfl

@[simp] theorem blanks_withRegistry :
    (catalog.withRegistry kind registry).blanks = catalog.blanks := by
  cases kind <;> rfl

@[simp] theorem depthLimit_withRegistry :
    (catalog.withRegistry kind registry).depthLimit = catalog.depthLimit := by
  cases kind <;> rfl

end Registries

theorem element_eq_ok_iff {catalog : Catalog} {kind : ElementKind} {slot : Nat} {element : Element} :
    catalog.element (kind, slot) = .ok element ↔ ∃ content,
      (catalog.registry kind).entries[slot]? = some content ∧ kind.element content = element := by
  rw [Catalog.element, map_eq_ok_iff]
  simp only [Registry.item_eq_ok_iff]

/-- The order lists every spot of the registries once, and shows these elements. -/
structure Stored (catalog : Catalog) (elements : List Element) : Prop where
  sound : ∀ kind, (catalog.registry kind).Sound kind.identifier
  distinct : catalog.order.Nodup
  listed : ∀ kind slot,
    (kind, slot) ∈ catalog.order ↔ slot < (catalog.registry kind).entries.length
  shown : catalog.order.map catalog.element = elements.map .ok

theorem stored_empty (depthLimit : Nat) : Stored { depthLimit } [] where
  sound kind := by cases kind <;> exact Registry.sound_empty _
  distinct := List.nodup_nil
  listed kind slot := by cases kind <;> simp [registry]
  shown := rfl

namespace Stored

variable {catalog other : Catalog} {elements : List Element} {kind : ElementKind} {slot : Nat}
  {content : kind.Content} (stored : catalog.Stored elements)

include stored

/-- Only the registries and the order count. -/
theorem congr (registries : ∀ kind, other.registry kind = catalog.registry kind)
    (order : other.order = catalog.order) : other.Stored elements where
  sound kind := registries kind ▸ stored.sound kind
  distinct := order ▸ stored.distinct
  listed kind slot := by
    rw [order, registries kind]
    exact stored.listed kind slot
  shown := by
    have element : other.element = catalog.element :=
      funext fun spot => by rw [Catalog.element, Catalog.element, registries]
    rw [order, element]
    exact stored.shown

theorem mem_of_element {element : Element} (access : catalog.element (kind, slot) = .ok element) :
    (kind, slot) ∈ catalog.order ∧ element ∈ elements := by
  obtain ⟨content, present, -⟩ := element_eq_ok_iff.mp access
  have listed := (stored.listed kind slot).mpr (List.getElem?_eq_some_iff.mp present).1
  have shown : (.ok element : Access Element) ∈ elements.map .ok := by
    rw [← stored.shown, ← access]
    exact List.mem_map_of_mem listed
  obtain ⟨_, member, same⟩ := List.mem_map.mp shown
  exact ⟨listed, Except.ok.inj same ▸ member⟩

/-- Every spot of the order is within its registry. -/
theorem exists_of_mem {spot : Spot} (member : spot ∈ catalog.order) :
    ∃ element ∈ elements, catalog.element spot = .ok element := by
  have shown : catalog.element spot ∈ elements.map .ok := by
    rw [← stored.shown]
    exact List.mem_map_of_mem member
  obtain ⟨element, inside, same⟩ := List.mem_map.mp shown
  exact ⟨element, inside, same.symm⟩

/-- Elements in two spots have two keys. -/
theorem spot_of_key {first second : Spot} {element further : Element}
    (access : catalog.element first = .ok element) (accessOther : catalog.element second = .ok further)
    (same : element.key = further.key) : first = second := by
  obtain ⟨kind, slot⟩ := first
  obtain ⟨kindOther, slotOther⟩ := second
  obtain ⟨content, present, rfl⟩ := element_eq_ok_iff.mp access
  obtain ⟨contentOther, presentOther, rfl⟩ := element_eq_ok_iff.mp accessOther
  rw [ElementKind.key_element, ElementKind.key_element, Prod.mk.injEq] at same
  obtain ⟨rfl, identifier⟩ := same
  have found := (stored.sound kind).slot?_of_getElem? present
  have foundOther := (stored.sound kind).slot?_of_getElem? presentOther
  rw [identifier, foundOther, Option.some.injEq] at found
  rw [found]

theorem shown_map {Value : Type} (change : Element → Value) :
    catalog.order.map (fun spot => (catalog.element spot).map change) =
      (elements.map change).map .ok := by
  have mapped := congrArg (List.map (Except.map change)) stored.shown
  simpa only [List.map_map, Function.comp_def, Except.map] using mapped

theorem nodup_keys : (elements.map Element.key).Nodup := by
  have distinct : (catalog.order.map fun spot => (catalog.element spot).map Element.key).Nodup := by
    refine stored.distinct.map_on fun first inFirst second inSecond same => ?_
    obtain ⟨element, -, access⟩ := stored.exists_of_mem inFirst
    obtain ⟨further, -, accessOther⟩ := stored.exists_of_mem inSecond
    rw [access, accessOther] at same
    exact stored.spot_of_key access accessOther (Except.ok.inj same)
  rw [stored.shown_map] at distinct
  exact distinct.of_map _

/-- An element in its slot is found under its key. -/
theorem find?_of_element {element : Element} (access : catalog.element (kind, slot) = .ok element) :
    Keyed.find? Element.key element.key elements = some element :=
  Keyed.find?_of_mem stored.nodup_keys (stored.mem_of_element access).2

/-- Every element is in a spot of the order. -/
theorem exists_spot {element : Element} (member : element ∈ elements) :
    ∃ spot ∈ catalog.order, catalog.element spot = .ok element := by
  have shown : (.ok element : Access Element) ∈ catalog.order.map catalog.element := by
    rw [stored.shown]
    exact List.mem_map_of_mem member
  exact List.mem_map.mp shown

theorem notMem_of_slot? (fresh : (catalog.registry kind).slot? (kind.identifier content) = none) :
    (kind.element content).key ∉ elements.map Element.key := by
  intro taken
  obtain ⟨element, member, same⟩ := List.mem_map.mp taken
  obtain ⟨⟨other, slot⟩, -, access⟩ := stored.exists_spot member
  obtain ⟨held, present, rfl⟩ := element_eq_ok_iff.mp access
  rw [ElementKind.key_element, ElementKind.key_element, Prod.mk.injEq] at same
  obtain ⟨rfl, identifier⟩ := same
  have found := (stored.sound other).slot?_of_getElem? present
  rw [identifier, fresh] at found
  exact absurd found (by simp)

end Stored

section Entries

variable {catalog : Catalog} {elements : List Element} {kind : ElementKind} {slot : Nat}
  {content held : kind.Content}

/-- The catalog with other content in one spot. -/
def setEntry (catalog : Catalog) (kind : ElementKind) (slot : Nat) (content : kind.Content) :
    Catalog :=
  catalog.withRegistry kind
    { catalog.registry kind with entries := (catalog.registry kind).entries.set slot content }

theorem registry_setEntry_self :
    (catalog.setEntry kind slot content).registry kind =
      { catalog.registry kind with entries := (catalog.registry kind).entries.set slot content } :=
  catalog.registry_withRegistry_self _

theorem element_setEntry_self (present : (catalog.registry kind).entries[slot]? = some held) :
    (catalog.setEntry kind slot content).element (kind, slot) = .ok (kind.element content) := by
  have within := (List.getElem?_eq_some_iff.mp present).1
  rw [element_eq_ok_iff, registry_setEntry_self]
  exact ⟨content, List.getElem?_set_self within, rfl⟩

theorem element_setEntry_of_ne {spot : Spot} (different : spot ≠ (kind, slot)) :
    (catalog.setEntry kind slot content).element spot = catalog.element spot := by
  obtain ⟨other, place⟩ := spot
  by_cases same : other = kind
  · subst same
    have apart : slot ≠ place := fun equal => different (equal ▸ rfl)
    rw [Catalog.element, Catalog.element, registry_setEntry_self, Registry.item, Registry.item,
      List.getElem?_set_ne apart]
  · rw [Catalog.element, Catalog.element, setEntry,
      catalog.registry_withRegistry_of_ne _ same]

section Replaced

variable (stored : catalog.Stored elements)
  (present : (catalog.registry kind).entries[slot]? = some held)
  (same : kind.identifier content = kind.identifier held)

include stored present same

/-- In one spot the element with the key of the new one is replaced by it. -/
theorem Stored.element_setEntry {spot : Spot} (member : spot ∈ catalog.order) :
    (catalog.setEntry kind slot content).element spot =
      (catalog.element spot).map (Keyed.replace Element.key (kind.element content)) := by
  have access := element_eq_ok_iff.mpr ⟨held, present, rfl⟩
  have sameKey : (kind.element held).key = (kind.element content).key := by
    rw [ElementKind.key_element, ElementKind.key_element, same]
  by_cases here : spot = (kind, slot)
  · rw [here, access, element_setEntry_self present]
    exact congrArg Except.ok (if_pos sameKey).symm
  · obtain ⟨element, -, accessOther⟩ := stored.exists_of_mem member
    rw [element_setEntry_of_ne here, accessOther]
    refine congrArg Except.ok (if_neg fun equal => here ?_).symm
    exact stored.spot_of_key accessOther access (equal.trans sameKey.symm)

/-- New content with the old identifier replaces an element in its place. -/
theorem Stored.setEntry :
    (catalog.setEntry kind slot content).Stored
      (Keyed.insert Element.key (kind.element content) elements) where
  sound := catalog.forall_withRegistry _ ((stored.sound kind).set present same)
    fun other _ => stored.sound other
  distinct := by
    rw [Catalog.setEntry, order_withRegistry]
    exact stored.distinct
  listed := by
    rw [Catalog.setEntry, order_withRegistry]
    refine @forall_withRegistry catalog kind _ (fun other registry => ∀ place,
      (other, place) ∈ catalog.order ↔ place < registry.entries.length) (fun place => ?_)
      fun other _ => stored.listed other
    rw [List.length_set]
    exact stored.listed kind place
  shown := by
    have access := element_eq_ok_iff.mpr ⟨held, present, rfl⟩
    have taken : (kind.element content).key ∈ elements.map Element.key := by
      rw [ElementKind.key_element, same, ← ElementKind.key_element]
      exact List.mem_map_of_mem (stored.mem_of_element access).2
    have order : (catalog.setEntry kind slot content).order = catalog.order :=
      catalog.order_withRegistry _
    rw [order, List.map_congr_left fun _ => stored.element_setEntry present same,
      stored.shown_map, Keyed.insert_of_mem stored.nodup_keys taken]

end Replaced

/-- The catalog with content in a new spot. -/
def addEntry (catalog : Catalog) (kind : ElementKind) (content : kind.Content) : Catalog :=
  { catalog.withRegistry kind
      ((catalog.registry kind).append (kind.identifier content) content) with
    order := catalog.order ++ [(kind, (catalog.registry kind).entries.length)] }

theorem registry_addEntry (catalog : Catalog) (kind : ElementKind) (content : kind.Content)
    (other : ElementKind) :
    (catalog.addEntry kind content).registry other =
      (catalog.withRegistry kind
        ((catalog.registry kind).append (kind.identifier content) content)).registry other := by
  cases other <;> rfl

theorem entries_addEntry_self :
    ((catalog.addEntry kind content).registry kind).entries =
      (catalog.registry kind).entries ++ [content] := by
  rw [registry_addEntry, registry_withRegistry_self]
  rfl

theorem entries_addEntry_of_ne {other : ElementKind} (different : other ≠ kind) :
    ((catalog.addEntry kind content).registry other).entries =
      (catalog.registry other).entries := by
  rw [registry_addEntry, catalog.registry_withRegistry_of_ne _ different]

theorem element_addEntry_of_ok {spot : Spot} {element : Element}
    (access : catalog.element spot = .ok element) :
    (catalog.addEntry kind content).element spot = .ok element := by
  obtain ⟨other, place⟩ := spot
  obtain ⟨old, present, rfl⟩ := element_eq_ok_iff.mp access
  refine element_eq_ok_iff.mpr ⟨old, ?_, rfl⟩
  by_cases own : other = kind
  · subst own
    rw [entries_addEntry_self, List.getElem?_append_left (List.getElem?_eq_some_iff.mp present).1]
    exact present
  · rw [entries_addEntry_of_ne own]
    exact present

theorem element_addEntry_self :
    (catalog.addEntry kind content).element (kind, (catalog.registry kind).entries.length) =
      .ok (kind.element content) := by
  refine element_eq_ok_iff.mpr ⟨content, ?_, rfl⟩
  rw [entries_addEntry_self, List.getElem?_concat_length]

/-- Content with a new identifier goes behind the other elements. -/
theorem Stored.addEntry (stored : catalog.Stored elements)
    (fresh : (catalog.registry kind).slot? (kind.identifier content) = none) :
    (catalog.addEntry kind content).Stored
      (Keyed.insert Element.key (kind.element content) elements) where
  sound other := by
    rw [registry_addEntry]
    exact catalog.forall_withRegistry _ ((stored.sound kind).append fresh)
      (fun other _ => stored.sound other) other
  distinct := by
    have absent : (kind, (catalog.registry kind).entries.length) ∉ catalog.order :=
      fun member => Nat.lt_irrefl _ ((stored.listed _ _).mp member)
    exact List.nodup_append.mpr ⟨stored.distinct, List.nodup_singleton _,
      fun spot member new added same => absent (List.mem_singleton.mp added ▸ same ▸ member)⟩
  listed other place := by
    have order : (catalog.addEntry kind content).order =
        catalog.order ++ [(kind, (catalog.registry kind).entries.length)] := rfl
    rw [order, List.mem_append, List.mem_singleton, stored.listed, Prod.mk.injEq]
    by_cases own : other = kind
    · subst own
      rw [entries_addEntry_self, List.length_append, List.length_singleton,
        Nat.lt_succ_iff_lt_or_eq, eq_self_iff_true, true_and]
    · rw [entries_addEntry_of_ne own, or_iff_left fun last => own last.1]
  shown := by
    have kept : ∀ spot ∈ catalog.order,
        (catalog.addEntry kind content).element spot = catalog.element spot := by
      intro spot member
      obtain ⟨element, -, access⟩ := stored.exists_of_mem member
      rw [access, element_addEntry_of_ok access]
    calc (catalog.addEntry kind content).order.map (catalog.addEntry kind content).element
        = catalog.order.map (catalog.addEntry kind content).element ++
            [(catalog.addEntry kind content).element
              (kind, (catalog.registry kind).entries.length)] := List.map_append
      _ = elements.map .ok ++ [.ok (kind.element content)] := by
          rw [List.map_congr_left kept, stored.shown, element_addEntry_self]
      _ = (Keyed.insert Element.key (kind.element content) elements).map .ok := by
          rw [Keyed.insert_of_notMem (stored.notMem_of_slot? fresh), List.map_append]
          rfl

end Entries

end Catalog

end GedcomGrammar
