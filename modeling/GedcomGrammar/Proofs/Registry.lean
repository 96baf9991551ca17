/-
This file proves that the index of a registry fits its slots.
-/

import GedcomGrammar.Proofs.Keyed
import GedcomGrammar.Registry

namespace GedcomGrammar.Registry

variable {Item : Type} {registry : Registry Item} {identifier : Item → Text} {name : Text}
  {slot : Nat} {item : Item}

theorem item_eq_ok_iff : registry.item slot = .ok item ↔ registry.entries[slot]? = some item := by
  rw [Registry.item]
  cases registry.entries[slot]? with
  | none => simp
  | some held => simp

theorem put_of_getElem? {held : Item} (present : registry.entries[slot]? = some held) :
    registry.put slot item = .ok { registry with entries := registry.entries.set slot item } :=
  if_pos (List.getElem?_eq_some_iff.mp present).1

theorem slot?_append (registry : Registry Item) (own name : Text) (item : Item) :
    (registry.append own item).slot? name =
      if own = name then some registry.entries.length else registry.slot? name := by
  split
  · rename_i same
    subst same
    exact congrArg (Option.map Prod.snd) (Keyed.find?_insert_self Prod.fst
      (own, registry.entries.length) registry.index)
  · rename_i other
    exact congrArg (Option.map Prod.snd) (Keyed.find?_insert_of_ne Prod.fst
      (own, registry.entries.length) registry.index name other)

/-- The index gives a slot to an identifier exactly when the item there has it. -/
structure Sound (identifier : Item → Text) (registry : Registry Item) : Prop where
  slots : ∀ name slot, registry.slot? name = some slot ↔
    registry.entries[slot]?.map identifier = some name

theorem sound_empty (identifier : Item → Text) : ({} : Registry Item).Sound identifier where
  slots name slot := by simp [slot?, Keyed.find?]

namespace Sound

variable (sound : registry.Sound identifier)

include sound

theorem slot?_of_getElem? (present : registry.entries[slot]? = some item) :
    registry.slot? (identifier item) = some slot :=
  (sound.slots _ _).mpr (by rw [present, Option.map_some])

theorem exists_of_slot? (found : registry.slot? name = some slot) :
    ∃ item, registry.entries[slot]? = some item ∧ identifier item = name :=
  Option.map_eq_some_iff.mp ((sound.slots name slot).mp found)

theorem lt_of_slot? (found : registry.slot? name = some slot) : slot < registry.entries.length := by
  obtain ⟨item, present, -⟩ := sound.exists_of_slot? found
  exact (List.getElem?_eq_some_iff.mp present).1

/-- No two slots have items with one identifier. -/
theorem nodup : (registry.entries.map identifier).Nodup := by
  rw [List.nodup_iff_getElem?_ne_getElem?]
  intro first second before within same
  rw [List.getElem?_eq_getElem within, List.getElem?_map] at same
  have slotFirst := (sound.slots _ first).mpr same
  have slotSecond := (sound.slots _ second).mpr (by
    rw [← List.getElem?_map, List.getElem?_eq_getElem within])
  exact Nat.ne_of_lt before (Option.some.inj (slotFirst.symm.trans slotSecond))

theorem find?_eq_some_iff :
    registry.find? name = .ok (some item) ↔ item ∈ registry.entries ∧ identifier item = name := by
  rw [find?]
  cases found : registry.slot? name with
  | none =>
      refine iff_of_false (by simp) ?_
      rintro ⟨member, rfl⟩
      obtain ⟨slot, present⟩ := List.mem_iff_getElem?.mp member
      exact absurd (found.symm.trans (sound.slot?_of_getElem? present)) (by simp)
  | some slot =>
      obtain ⟨held, present, own⟩ := sound.exists_of_slot? found
      have access : registry.item slot = .ok held := item_eq_ok_iff.mpr present
      simp only [access, Except.map, Except.ok.injEq, Option.some.injEq]
      constructor
      · rintro rfl
        exact ⟨List.mem_of_getElem? present, own⟩
      · rintro ⟨member, same⟩
        obtain ⟨other, presentOther⟩ := List.mem_iff_getElem?.mp member
        have foundOther := sound.slot?_of_getElem? presentOther
        rw [same, found, Option.some.injEq] at foundOther
        exact Option.some.inj (present.symm.trans (foundOther ▸ presentOther))

/-- A look-up always reaches a slot. -/
theorem exists_find? (name : Text) : ∃ found, registry.find? name = .ok found := by
  rw [find?]
  cases found : registry.slot? name with
  | none => exact ⟨none, rfl⟩
  | some slot =>
      obtain ⟨held, present, -⟩ := sound.exists_of_slot? found
      exact ⟨some held, congrArg (Except.map some) (item_eq_ok_iff.mpr present)⟩

theorem find?_eq_none_iff :
    registry.find? name = .ok none ↔ ∀ item ∈ registry.entries, identifier item ≠ name := by
  constructor
  · intro missing item member own
    have found := sound.find?_eq_some_iff.mpr ⟨member, own⟩
    exact absurd (missing.symm.trans found) (by simp)
  · intro absent
    obtain ⟨found, access⟩ := sound.exists_find? name
    cases found with
    | none => exact access
    | some item =>
        obtain ⟨member, own⟩ := sound.find?_eq_some_iff.mp access
        exact absurd own (absent item member)

/-- An item may be replaced by one with the same identifier. -/
theorem set {held : Item} (present : registry.entries[slot]? = some held)
    (same : identifier item = identifier held) :
    ({ registry with entries := registry.entries.set slot item } : Registry Item).Sound
      identifier where
  slots name other := by
    have unchanged : (registry.entries.set slot item)[other]?.map identifier =
        registry.entries[other]?.map identifier := by
      by_cases here : slot = other
      · subst here
        have within := (List.getElem?_eq_some_iff.mp present).1
        rw [List.getElem?_set_self within, present, Option.map_some, Option.map_some, same]
      · rw [List.getElem?_set_ne here]
    rw [unchanged]
    exact sound.slots name other

theorem append (fresh : registry.slot? (identifier item) = none) :
    (registry.append (identifier item) item).Sound identifier where
  slots name slot := by
    have entries : (registry.append (identifier item) item).entries =
        registry.entries ++ [item] := rfl
    rw [slot?_append, entries]
    rcases Nat.lt_trichotomy slot registry.entries.length with within | rfl | beyond
    · rw [List.getElem?_append_left within]
      split
      · rename_i own
        subst own
        have absent := mt (sound.slots (identifier item) slot).mpr (by simp [fresh])
        exact iff_of_false (by simp [Nat.ne_of_gt within]) absent
      · exact sound.slots name slot
    · rw [List.getElem?_concat_length, Option.map_some, Option.some.injEq]
      split
      · rename_i own
        exact iff_of_true rfl own
      · rename_i other
        exact iff_of_false (fun found => Nat.lt_irrefl _ (sound.lt_of_slot? found)) other
    · have outside : (registry.entries ++ [item])[slot]? = none :=
        List.getElem?_eq_none (by rw [List.length_append]; exact beyond)
      rw [outside, Option.map_none]
      split
      · exact iff_of_false (by simp [Nat.ne_of_lt beyond]) (by simp)
      · exact iff_of_false (fun found => Nat.lt_asymm beyond (sound.lt_of_slot? found)) (by simp)

end Sound

end GedcomGrammar.Registry
