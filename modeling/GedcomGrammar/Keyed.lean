/-
This file defines lists in which each item is found by a key of its own.
-/

namespace GedcomGrammar.Keyed

variable {Item Key : Type} [DecidableEq Key]

/-- A new item goes to the end, and an item whose key is taken replaces the old one in place. -/
def insert (key : Item → Key) (item : Item) : List Item → List Item
  | [] => [item]
  | first :: rest =>
      if key first = key item then item :: rest else first :: insert key item rest

/-- The item with a key. -/
def find? (key : Item → Key) (wanted : Key) (items : List Item) : Option Item :=
  items.find? fun item => key item = wanted

@[simp] theorem find?_insert_self (key : Item → Key) (item : Item) (items : List Item) :
    find? key (key item) (insert key item items) = some item := by
  induction items with
  | nil => simp [insert, find?]
  | cons first rest inductionHypothesis =>
      by_cases same : key first = key item
      · simp [insert, find?, same]
      · simpa [insert, find?, same] using inductionHypothesis

/-- An insertion leaves every other key as it was. -/
theorem find?_insert_of_ne (key : Item → Key) (item : Item) (items : List Item) (wanted : Key)
    (different : key item ≠ wanted) :
    find? key wanted (insert key item items) = find? key wanted items := by
  induction items with
  | nil => simp [insert, find?, different]
  | cons first rest inductionHypothesis =>
      by_cases same : key first = key item
      · simp [insert, find?, same, different]
      · rw [insert, if_neg same]
        by_cases found : key first = wanted
        · simp [find?, found]
        · simpa [find?, found] using inductionHypothesis

/-- The keys keep their order, and only a new key is added to them. -/
theorem map_insert (key : Item → Key) (item : Item) (items : List Item) :
    (insert key item items).map key =
      if key item ∈ items.map key then items.map key else items.map key ++ [key item] := by
  induction items with
  | nil => simp [insert]
  | cons first rest inductionHypothesis =>
      by_cases same : key first = key item
      · simp [insert, same]
      · have other : key item ≠ key first := Ne.symm same
        rw [insert, if_neg same, List.map_cons, inductionHypothesis]
        by_cases found : key item ∈ rest.map key
        · simp only [found, List.map_cons, List.mem_cons, or_true, if_true]
        · simp only [found, other, List.map_cons, List.mem_cons, or_self, if_false,
            List.cons_append]

/-- Keys that are distinct stay distinct. -/
theorem nodup_insert (key : Item → Key) (item : Item) {items : List Item}
    (distinct : (items.map key).Nodup) : ((insert key item items).map key).Nodup := by
  rw [map_insert]
  split
  · exact distinct
  · rename_i fresh
    rw [List.nodup_append]
    refine ⟨distinct, by simp, ?_⟩
    intro old member new newMember same
    rw [List.mem_singleton] at newMember
    exact fresh (newMember ▸ same ▸ member)

end GedcomGrammar.Keyed
