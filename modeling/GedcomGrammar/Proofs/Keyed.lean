/-
This file proves what insertions make of a list in which each item is found by a key of its own.
-/

import GedcomGrammar.Keyed
import Mathlib.Tactic

namespace GedcomGrammar.Keyed

variable {Item Key : Type} [DecidableEq Key]

theorem mem_insert {key : Item → Key} {item other : Item} {items : List Item}
    (member : other ∈ insert key item items) : other = item ∨ other ∈ items := by
  induction items with
  | nil => exact .inl (List.mem_singleton.mp member)
  | cons first rest inductionHypothesis =>
      rw [insert] at member
      split at member
      · rcases List.mem_cons.mp member with new | old
        · exact .inl new
        · exact .inr (List.mem_cons_of_mem first old)
      · rcases List.mem_cons.mp member with same | later
        · exact .inr (by simp [same])
        · rcases inductionHypothesis later with new | old
          · exact .inl new
          · exact .inr (List.mem_cons_of_mem first old)

/-- The list that inserting items one by one makes. -/
def ofList (key : Item → Key) (items : List Item) : List Item :=
  items.foldl (fun held item => insert key item held) []

theorem insert_of_notMem {key : Item → Key} {item : Item} {items : List Item}
    (fresh : key item ∉ items.map key) : insert key item items = items ++ [item] := by
  induction items with
  | nil => rfl
  | cons first rest inductionHypothesis =>
      rw [List.map_cons, List.mem_cons, not_or] at fresh
      rw [insert, if_neg (Ne.symm fresh.1), inductionHypothesis fresh.2, List.cons_append]

/-- An insertion leaves every item with another key in its place. -/
theorem getElem?_insert_of_ne {key : Item → Key} {item old : Item} {items : List Item}
    {position : Nat} (present : items[position]? = some old) (different : key old ≠ key item) :
    (insert key item items)[position]? = some old := by
  induction items generalizing position with
  | nil => exact absurd present (by simp)
  | cons first rest inductionHypothesis =>
      rw [insert]
      split
      · rename_i same
        cases position with
        | zero =>
            rw [List.getElem?_cons_zero, Option.some.injEq] at present
            exact absurd same (present ▸ different)
        | succ position => exact present
      · cases position with
        | zero => exact present
        | succ position => exact inductionHypothesis present

/-- An item takes the place of an old one with its key, and of no other. -/
def replace (key : Item → Key) (item old : Item) : Item :=
  if key old = key item then item else old

/-- Where a key of its own is taken, an insertion replaces one item by another. -/
theorem insert_of_mem {key : Item → Key} {item : Item} {items : List Item}
    (distinct : (items.map key).Nodup) (taken : key item ∈ items.map key) :
    insert key item items = items.map (replace key item) := by
  induction items with
  | nil => exact absurd taken List.not_mem_nil
  | cons first rest inductionHypothesis =>
      rw [List.map_cons, List.nodup_cons] at distinct
      rw [List.map_cons, List.mem_cons] at taken
      by_cases same : key first = key item
      · have others : rest.map (replace key item) = rest := by
          refine (List.map_congr_left fun old member => if_neg fun own => ?_).trans
            (List.map_id rest)
          exact distinct.1 (same ▸ own ▸ List.mem_map_of_mem member)
        rw [insert, if_pos same, List.map_cons, replace, if_pos same, others]
      · rw [insert, if_neg same, List.map_cons, replace, if_neg same,
          inductionHypothesis distinct.2 (taken.resolve_left (Ne.symm same))]

theorem insert_of_find? {key : Item → Key} {item : Item} {items : List Item}
    (found : find? key (key item) items = some item) : insert key item items = items := by
  induction items with
  | nil => simp [find?] at found
  | cons first rest inductionHypothesis =>
      by_cases same : key first = key item
      · rw [find?, List.find?_cons_of_pos (by simpa using same), Option.some.injEq] at found
        rw [insert, if_pos same, found]
      · rw [find?, List.find?_cons_of_neg (by simpa using same)] at found
        rw [insert, if_neg same, inductionHypothesis found]

section Values

variable {Value Other : Type}

/-- A change of the values changes the value that is found. -/
theorem find?_map_values (change : Value → Other) (wanted : Key) (items : List (Key × Value)) :
    (find? Prod.fst wanted (items.map fun item => (item.1, change item.2))).map Prod.snd =
      ((find? Prod.fst wanted items).map Prod.snd).map change := by
  simp only [find?, List.find?_map, Function.comp_def, Option.map_map]

theorem find?_of_value {wanted : Key} {value : Value} {items : List (Key × Value)}
    (found : (find? Prod.fst wanted items).map Prod.snd = some value) :
    find? Prod.fst wanted items = some (wanted, value) := by
  obtain ⟨item, first, same⟩ := Option.map_eq_some_iff.mp found
  have key : item.1 = wanted := by simpa using List.find?_some first
  rw [first, ← key, ← same]

theorem mem_of_value {wanted : Key} {value : Value} {items : List (Key × Value)}
    (found : (find? Prod.fst wanted items).map Prod.snd = some value) :
    (wanted, value) ∈ items :=
  List.mem_of_find?_eq_some (find?_of_value found)

/-- To insert what is already there changes nothing. -/
theorem insert_of_value {wanted : Key} {value : Value} {items : List (Key × Value)}
    (found : (find? Prod.fst wanted items).map Prod.snd = some value) :
    insert Prod.fst (wanted, value) items = items :=
  @insert_of_find? _ _ _ Prod.fst (wanted, value) items (find?_of_value found)

/-- A change of the values may come before or after an insertion. -/
theorem insert_map_values (change : Value → Other) (key : Key) (value : Value)
    (items : List (Key × Value)) :
    (insert Prod.fst (key, value) items).map (fun item => (item.1, change item.2)) =
      insert Prod.fst (key, change value) (items.map fun item => (item.1, change item.2)) := by
  induction items with
  | nil => rfl
  | cons first rest inductionHypothesis =>
      simp only [insert, List.map_cons]
      split
      · rfl
      · rw [List.map_cons, inductionHypothesis]

end Values

/-- Of two insertions with one key only the later one counts. -/
theorem insert_insert {key : Item → Key} {item other : Item} (same : key item = key other)
    (items : List Item) : insert key item (insert key other items) = insert key item items := by
  induction items with
  | nil => simp [insert, same]
  | cons first rest inductionHypothesis =>
      by_cases found : key first = key item
      · have foundOther : key first = key other := found.trans same
        rw [insert, if_pos foundOther, insert, if_pos same.symm, insert, if_pos found]
      · have notOther : ¬key first = key other := fun equal => found (equal.trans same.symm)
        rw [insert, if_neg notOther, insert, if_neg found, inductionHypothesis, insert,
          if_neg found]

theorem length_insert_le (key : Item → Key) (item : Item) (items : List Item) :
    (insert key item items).length ≤ items.length + 1 := by
  have lengths := congrArg List.length (map_insert key item items)
  rw [List.length_map] at lengths
  rw [lengths]
  split <;> simp

theorem length_foldl_insert_le (key : Item → Key) (items held : List Item) :
    (items.foldl (fun held item => insert key item held) held).length ≤
      held.length + items.length := by
  induction items generalizing held with
  | nil => simp
  | cons item rest inductionHypothesis =>
      have one := length_insert_le key item held
      have later := inductionHypothesis (insert key item held)
      rw [List.foldl_cons, List.length_cons]
      omega

theorem foldl_insert {key : Item → Key} {items held : List Item}
    (distinct : ((held ++ items).map key).Nodup) :
    items.foldl (fun held item => insert key item held) held = held ++ items := by
  induction items generalizing held with
  | nil => rw [List.foldl_nil, List.append_nil]
  | cons item rest inductionHypothesis =>
      have fresh : key item ∉ held.map key := by
        rw [List.map_append, List.nodup_append] at distinct
        intro member
        exact distinct.2.2 _ member _ (by simp) rfl
      rw [List.append_cons] at distinct
      rw [List.foldl_cons, insert_of_notMem fresh, inductionHypothesis distinct,
        List.append_assoc, List.singleton_append]

/-- A key that occurs again makes the list shorter. -/
theorem nodup_of_length_foldl_insert {key : Item → Key} {items held : List Item}
    (heldDistinct : (held.map key).Nodup)
    (full : held.length + items.length ≤
      (items.foldl (fun held item => insert key item held) held).length) :
    ((held ++ items).map key).Nodup := by
  induction items generalizing held with
  | nil => rwa [List.append_nil]
  | cons item rest inductionHypothesis =>
      rw [List.foldl_cons, List.length_cons] at full
      have fresh : key item ∉ held.map key := by
        intro taken
        have lengths := congrArg List.length (map_insert key item held)
        rw [if_pos taken, List.length_map, List.length_map] at lengths
        have later := length_foldl_insert_le key rest (insert key item held)
        omega
      have whole := inductionHypothesis (nodup_insert key item heldDistinct) (by
        rw [insert_of_notMem fresh] at full ⊢
        rw [List.length_append, List.length_singleton]
        omega)
      rwa [insert_of_notMem fresh, ← List.append_cons] at whole

theorem ofList_of_nodup {key : Item → Key} {items : List Item}
    (distinct : (items.map key).Nodup) : ofList key items = items :=
  foldl_insert (by rwa [List.nil_append])

/-- Items with keys of their own, and only those, all stay. -/
theorem length_ofList_iff {key : Item → Key} {items : List Item} :
    (ofList key items).length = items.length ↔ (items.map key).Nodup := by
  constructor
  · intro full
    have enough : ([] : List Item).length + items.length ≤ (ofList key items).length := by
      rw [List.length_nil, Nat.zero_add, full]
    have distinct := @nodup_of_length_foldl_insert _ _ _ key items [] List.nodup_nil enough
    rwa [List.nil_append] at distinct
  · intro distinct
    rw [ofList_of_nodup distinct]

end GedcomGrammar.Keyed
