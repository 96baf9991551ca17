/-
This file proves that the structures of a catalog fit one another after any lines and texts.
-/

import GedcomGrammar.Proofs.Catalog.Tracks

namespace GedcomGrammar

namespace Catalog

/-- The elements of all registries, one registry behind the other. -/
def entries (catalog : Catalog) : List Element :=
  catalog.primitives.entries.map .primitive ++
    (catalog.tags.entries.map .tag ++ catalog.structures.entries.map .struct)

/-- What the registries, the order and the open spot of a catalog promise one another. -/
structure Orderly (catalog : Catalog) : Prop where
  distinct : ∀ kind, ((catalog.registry kind).entries.map kind.identifier).Nodup
  found : ∀ kind name content, (catalog.registry kind).find? name = .ok (some content) ↔
    content ∈ (catalog.registry kind).entries ∧ kind.identifier content = name
  missing : ∀ kind name, (catalog.registry kind).find? name = .ok none ↔
    ∀ content ∈ (catalog.registry kind).entries, kind.identifier content ≠ name
  reached : ∀ kind name, ∃ found, (catalog.registry kind).find? name = .ok found
  once : catalog.order.Nodup
  listed : ∀ kind slot,
    (kind, slot) ∈ catalog.order ↔ slot < (catalog.registry kind).entries.length
  length : catalog.length = catalog.primitives.entries.length +
    (catalog.tags.entries.length + catalog.structures.entries.length)
  text : ∃ elements : List Element, elements.Perm catalog.entries ∧
    catalog.order.map catalog.element = elements.map .ok ∧
      catalog.text = .ok (Text.joinWith ['\n', '\n'] (elements.map Element.text))
  opened : ∀ kind slot, catalog.opened = some (kind, slot) →
    slot < (catalog.registry kind).entries.length
  extended : ∀ line, ∃ taken, catalog.extend line = .ok taken

section Spots

variable (catalog : Catalog)

/-- The spots of one registry. -/
def spotsOf (kind : ElementKind) : List Spot :=
  (List.range (catalog.registry kind).entries.length).map (Prod.mk kind)

/-- The spots of all registries. -/
def spots : List Spot :=
  catalog.spotsOf .primitive ++ (catalog.spotsOf .tag ++ catalog.spotsOf .struct)

theorem mem_spotsOf_iff {kind other : ElementKind} {slot : Nat} :
    (kind, slot) ∈ catalog.spotsOf other ↔
      other = kind ∧ slot < (catalog.registry other).entries.length := by
  simp [spotsOf, and_comm]

theorem mem_spots_iff {kind : ElementKind} {slot : Nat} :
    (kind, slot) ∈ catalog.spots ↔ slot < (catalog.registry kind).entries.length := by
  simp only [spots, List.mem_append, mem_spotsOf_iff]
  cases kind <;> simp

theorem nodup_spotsOf (kind : ElementKind) : (catalog.spotsOf kind).Nodup :=
  List.nodup_range.map (Prod.mk_right_injective kind)

theorem disjoint_spotsOf {kind other : ElementKind} (different : kind ≠ other) :
    (catalog.spotsOf kind).Disjoint (catalog.spotsOf other) := by
  rintro ⟨found, slot⟩ member memberOther
  have own := ((catalog.mem_spotsOf_iff).mp member).1
  have ownOther := ((catalog.mem_spotsOf_iff).mp memberOther).1
  exact different (own.trans ownOther.symm)

theorem nodup_spots : catalog.spots.Nodup := by
  refine (catalog.nodup_spotsOf _).append
    ((catalog.nodup_spotsOf _).append (catalog.nodup_spotsOf _)
      (catalog.disjoint_spotsOf (by decide))) ?_
  rw [List.disjoint_append_right]
  exact ⟨catalog.disjoint_spotsOf (by decide), catalog.disjoint_spotsOf (by decide)⟩

theorem map_element_spotsOf (kind : ElementKind) :
    (catalog.spotsOf kind).map catalog.element =
      ((catalog.registry kind).entries.map kind.element).map .ok := by
  refine List.ext_getElem (by simp [spotsOf]) fun slot within withinOther => ?_
  rw [List.length_map, List.length_map] at withinOther
  have access := (@element_eq_ok_iff catalog kind slot _).mpr
    ⟨_, List.getElem?_eq_getElem withinOther, rfl⟩
  simpa [spotsOf] using access

theorem map_element_spots : catalog.spots.map catalog.element = catalog.entries.map .ok := by
  simp only [spots, entries, List.map_append, map_element_spotsOf]
  rfl

end Spots

namespace Stored

variable {catalog : Catalog} {elements : List Element} (stored : catalog.Stored elements)

include stored

theorem perm_spots : catalog.order.Perm catalog.spots := by
  refine (List.perm_ext_iff_of_nodup stored.distinct catalog.nodup_spots).mpr fun spot => ?_
  obtain ⟨kind, slot⟩ := spot
  rw [stored.listed, catalog.mem_spots_iff]

theorem perm_entries : elements.Perm catalog.entries := by
  have perm := stored.perm_spots.map catalog.element
  rw [stored.shown, catalog.map_element_spots] at perm
  exact (List.map_perm_map_iff fun _ _ same => Except.ok.inj same).mp perm

theorem length_eq : catalog.length = elements.length := by
  have lengths := congrArg List.length stored.shown
  rwa [List.length_map, List.length_map] at lengths

theorem text_eq :
    catalog.text = .ok (Text.joinWith ['\n', '\n'] (elements.map Element.text)) := by
  rw [Catalog.text, mapM_of_map (stored.shown_map Element.text)]
  rfl

/-- An element is looked up by its key in a slot or in the list. -/
theorem find?_eq (key : Element.Key) :
    catalog.find? key = .ok (Keyed.find? Element.key key elements) := by
  obtain ⟨kind, name⟩ := key
  obtain ⟨found, access⟩ := (stored.sound kind).exists_find? name
  rw [Catalog.find?, access]
  refine congrArg Except.ok ?_
  cases found with
  | some content =>
      obtain ⟨member, own⟩ := (stored.sound kind).find?_eq_some_iff.mp access
      obtain ⟨slot, present⟩ := List.mem_iff_getElem?.mp member
      have inList := stored.find?_of_element (element_eq_ok_iff.mpr ⟨content, present, rfl⟩)
      rw [ElementKind.key_element, own] at inList
      exact inList.symm
  | none =>
      have absent := (stored.sound kind).find?_eq_none_iff.mp access
      refine (Keyed.find?_eq_none_of_notMem fun member => ?_).symm
      obtain ⟨element, inside, same⟩ := List.mem_map.mp member
      obtain ⟨⟨other, slot⟩, -, held⟩ := stored.exists_spot inside
      obtain ⟨content, present, rfl⟩ := element_eq_ok_iff.mp held
      rw [ElementKind.key_element, Prod.mk.injEq] at same
      obtain ⟨rfl, identifier⟩ := same
      exact absent content (List.mem_of_getElem? present) identifier

end Stored

end Catalog

theorem Tracks.orderly {catalog : Catalog} {schema : Schema} (tracks : Tracks catalog schema) :
    catalog.Orderly where
  distinct kind := (tracks.stored.sound kind).nodup
  found kind _ _ := (tracks.stored.sound kind).find?_eq_some_iff
  missing kind _ := (tracks.stored.sound kind).find?_eq_none_iff
  reached kind := (tracks.stored.sound kind).exists_find?
  once := tracks.stored.distinct
  listed := tracks.stored.listed
  length := by
    rw [tracks.stored.length_eq, tracks.stored.perm_entries.length_eq, Catalog.entries]
    simp only [List.length_append, List.length_map]
  text := ⟨schema.elements, tracks.stored.perm_entries, tracks.stored.shown,
    tracks.stored.text_eq⟩
  opened kind slot opened := by
    obtain ⟨content, present, -⟩ := tracks.exists_open opened
    exact (List.getElem?_eq_some_iff.mp present).1
  extended line := by
    obtain ⟨next, taken, -⟩ := tracks.extend line
    exact ⟨_, taken⟩

namespace Catalog

/--
After any lines and texts, refused or not, no slot was missing, and the structures of the catalog
fit one another. It has given the errors of the schema, and shows the same elements.
-/
theorem orderly_takeAll (depthLimit : Nat) (feeds : List Feed) :
    ∃ catalog, ({ depthLimit } : Catalog).takeAll feeds =
        .ok (catalog, (({ depthLimit } : Schema).takeAll feeds).2) ∧
      catalog.Orderly ∧ Tracks catalog (({ depthLimit } : Schema).takeAll feeds).1 ∧
        catalog.text = .ok (({ depthLimit } : Schema).takeAll feeds).1.text ∧
          ∀ key, catalog.find? key = .ok ((({ depthLimit } : Schema).takeAll feeds).1.find? key) := by
  obtain ⟨catalog, taken, tracks⟩ := (tracks_empty depthLimit).takeAll feeds
  exact ⟨catalog, taken, tracks.orderly, tracks, tracks.stored.text_eq, tracks.stored.find?_eq⟩

end Catalog

end GedcomGrammar
