/-
This file proves what a row of insertions leaves of the items before them.
-/

import GedcomGrammar.Proofs.Keyed

namespace GedcomGrammar.Keyed

variable {Item Key : Type} [DecidableEq Key]

/-- The last item with a key. -/
def findLast? (key : Item → Key) (wanted : Key) (items : List Item) : Option Item :=
  find? key wanted items.reverse

theorem findLast?_append (key : Item → Key) (wanted : Key) (front back : List Item) :
    findLast? key wanted (front ++ back) =
      (findLast? key wanted back).or (findLast? key wanted front) := by
  simp only [findLast?, find?, List.reverse_append, List.find?_append]

/-- Of inserted items the last one with a key is found, and before them what was held. -/
theorem find?_foldl_insert (key : Item → Key) (wanted : Key) (items held : List Item) :
    find? key wanted (items.foldl (fun held item => insert key item held) held) =
      (findLast? key wanted items).or (find? key wanted held) := by
  induction items using List.reverseRecOn with
  | nil => rfl
  | append_singleton front item inductionHypothesis =>
      rw [List.foldl_append, List.foldl_cons, List.foldl_nil, findLast?_append]
      by_cases own : key item = wanted
      · rw [← own, find?_insert_self]
        simp [findLast?, find?]
      · have skipped : findLast? key wanted [item] = none := by simp [findLast?, find?, own]
        rw [find?_insert_of_ne key item _ wanted own, inductionHypothesis, skipped, Option.none_or]

theorem ofList_concat (key : Item → Key) (front : List Item) (item : Item) :
    ofList key (front ++ [item]) = insert key item (ofList key front) :=
  List.foldl_append

theorem find?_ofList (key : Item → Key) (wanted : Key) (items : List Item) :
    find? key wanted (ofList key items) = findLast? key wanted items := by
  rw [ofList, find?_foldl_insert]
  exact Option.or_none

/-- Each key stands where it was inserted first. -/
theorem map_ofList [BEq Key] [LawfulBEq Key] (key : Item → Key) (items : List Item) :
    (ofList key items).map key = (items.map key).eraseDups := by
  induction items using List.reverseRecOn with
  | nil => rfl
  | append_singleton front item inductionHypothesis =>
      rw [ofList_concat, map_insert, inductionHypothesis, List.map_append, List.map_singleton,
        List.eraseDups_append, List.cons_removeAll]
      by_cases old : key item ∈ front.map key
      · have kept : key item ∈ (front.map key).eraseDups := List.mem_eraseDups.mpr old
        have repeated : (front.map key).contains (key item) = true := List.contains_iff_mem.mpr old
        rw [if_pos kept, repeated]
        exact (List.append_nil _).symm
      · have fresh : key item ∉ (front.map key).eraseDups := fun member =>
          old (List.mem_eraseDups.mp member)
        have unseen : (front.map key).contains (key item) = false :=
          Bool.eq_false_iff.mpr fun member => old (List.contains_iff_mem.mp member)
        rw [if_neg fresh, if_pos unseen, List.nil_removeAll, List.eraseDups_cons]
        rfl

theorem nodup_ofList (key : Item → Key) (items : List Item) :
    ((ofList key items).map key).Nodup := by
  induction items using List.reverseRecOn with
  | nil => exact List.nodup_nil
  | append_singleton front item inductionHypothesis =>
      rw [ofList_concat]
      exact nodup_insert key item inductionHypothesis

theorem findLast?_of_nodup {key : Item → Key} {items : List Item}
    (distinct : (items.map key).Nodup) (wanted : Key) :
    findLast? key wanted items = find? key wanted items := by
  rw [← find?_ofList, ofList_of_nodup distinct]

/-- In lists with distinct keys, one behind the other, the last list that has a key gives the item. -/
theorem findLast?_flatMap {Part : Type} {key : Item → Key} {items : Part → List Item}
    {parts : List Part} (distinct : ∀ part ∈ parts, ((items part).map key).Nodup) (wanted : Key) :
    findLast? key wanted (parts.flatMap items) =
      parts.reverse.findSome? fun part => find? key wanted (items part) := by
  induction parts with
  | nil => rfl
  | cons part rest inductionHypothesis =>
      rw [List.forall_mem_cons] at distinct
      rw [List.flatMap_cons, findLast?_append, inductionHypothesis distinct.2,
        findLast?_of_nodup distinct.1, List.reverse_cons, List.findSome?_append]
      simp

theorem find?_eq_none_of_notMem {key : Item → Key} {wanted : Key} {items : List Item}
    (absent : wanted ∉ items.map key) : find? key wanted items = none := by
  rw [find?, List.find?_eq_none]
  intro item member same
  rw [decide_eq_true_eq] at same
  exact absent (same ▸ List.mem_map_of_mem member)

/-- Lists with the same distinct keys are equal when the same item is found under each key. -/
theorem eq_of_find? {key : Item → Key} {left right : List Item}
    (distinct : (left.map key).Nodup) (order : left.map key = right.map key)
    (same : ∀ wanted, find? key wanted left = find? key wanted right) : left = right := by
  induction left generalizing right with
  | nil =>
      rw [List.map_nil, eq_comm, List.map_eq_nil_iff] at order
      exact order.symm
  | cons first rest inductionHypothesis =>
      cases right with
      | nil => exact absurd order (by simp)
      | cons second others =>
          rw [List.map_cons, List.map_cons, List.cons.injEq] at order
          rw [List.map_cons, List.nodup_cons] at distinct
          have heads : first = second := by
            have found := same (key first)
            simpa [find?, order.1] using found
          have tails (wanted : Key) : find? key wanted rest = find? key wanted others := by
            by_cases own : key first = wanted
            · rw [find?_eq_none_of_notMem (own ▸ distinct.1),
                find?_eq_none_of_notMem (own ▸ order.2 ▸ distinct.1)]
            · have found := same wanted
              rw [← heads] at found
              simpa [find?, own] using found
          rw [heads, inductionHypothesis distinct.2 order.2 tails]

theorem find?_of_mem {key : Item → Key} {item : Item} {items : List Item}
    (distinct : (items.map key).Nodup) (member : item ∈ items) :
    find? key (key item) items = some item := by
  induction items with
  | nil => exact absurd member List.not_mem_nil
  | cons first rest inductionHypothesis =>
      rw [List.map_cons, List.nodup_cons] at distinct
      rcases List.mem_cons.mp member with rfl | later
      · simp [find?]
      · have other : key first ≠ key item := fun same =>
          distinct.1 (same ▸ List.mem_map_of_mem later)
        rw [find?, List.find?_cons_of_neg (by simpa using other)]
        exact inductionHypothesis distinct.2 later

/-- Items with keys of their own are found one by one in the order of their keys. -/
theorem filterMap_find? {key : Item → Key} {items : List Item}
    (distinct : (items.map key).Nodup) :
    (items.map key).filterMap (fun wanted => find? key wanted items) = items := by
  have found : ∀ item ∈ items, ((fun wanted => find? key wanted items) ∘ key) item = some item :=
    fun item member => find?_of_mem distinct member
  rw [List.filterMap_map, List.filterMap_congr found, List.filterMap_some]

/-- An insertion under a key that is taken may come before or after one under another key. -/
theorem insert_comm {key : Item → Key} {item other : Item} {items : List Item}
    (taken : key item ∈ items.map key) (different : key other ≠ key item) :
    insert key item (insert key other items) = insert key other (insert key item items) := by
  induction items with
  | nil => exact absurd taken List.not_mem_nil
  | cons first rest inductionHypothesis =>
      by_cases own : key first = key item
      · have notOther : key first ≠ key other := fun same => different (same.symm.trans own)
        rw [insert, if_neg notOther, insert, if_pos own, insert, if_pos own, insert,
          if_neg different.symm]
      · by_cases place : key first = key other
        · rw [insert, if_pos place, insert, if_neg different, insert, if_neg own, insert,
            if_pos place]
        · have later : key item ∈ rest.map key := by
            rw [List.map_cons, List.mem_cons] at taken
            exact taken.resolve_left (Ne.symm own)
          rw [insert, if_neg place, insert, if_neg own, inductionHypothesis later, insert,
            if_neg own, insert, if_neg place]

theorem foldl_insert_comm {key : Item → Key} {item : Item} {items held : List Item}
    (taken : key item ∈ held.map key) (absent : key item ∉ items.map key) :
    insert key item (items.foldl (fun held item => insert key item held) held) =
      items.foldl (fun held item => insert key item held) (insert key item held) := by
  induction items generalizing held with
  | nil => rfl
  | cons first rest inductionHypothesis =>
      rw [List.map_cons, List.mem_cons, not_or] at absent
      have stillTaken : key item ∈ (insert key first held).map key := by
        rw [map_insert]
        split
        · exact taken
        · exact List.mem_append_left _ taken
      rw [List.foldl_cons, List.foldl_cons, inductionHypothesis stillTaken absent.2,
        insert_comm taken (Ne.symm absent.1)]

/-- To insert an item and then the whole list is to insert the list and then the item. -/
theorem foldl_insert_insert {key : Item → Key} (item : Item) {items : List Item}
    (distinct : (items.map key).Nodup) (held : List Item) :
    (insert key item items).foldl (fun held item => insert key item held) held =
      insert key item (items.foldl (fun held item => insert key item held) held) := by
  induction items generalizing held with
  | nil => rfl
  | cons first rest inductionHypothesis =>
      rw [List.map_cons, List.nodup_cons] at distinct
      by_cases own : key first = key item
      · have taken : key item ∈ (insert key first held).map key := by
          rw [map_insert, own]
          split
          · assumption
          · simp
        rw [insert, if_pos own, List.foldl_cons, List.foldl_cons,
          foldl_insert_comm taken (own ▸ distinct.1), insert_insert own.symm]
      · rw [insert, if_neg own, List.foldl_cons, List.foldl_cons,
          inductionHypothesis distinct.2]

/-- A list may first be made of the items. -/
theorem foldl_insert_ofList (key : Item → Key) (items held : List Item) :
    (ofList key items).foldl (fun held item => insert key item held) held =
      items.foldl (fun held item => insert key item held) held := by
  induction items using List.reverseRecOn with
  | nil => rfl
  | append_singleton front item inductionHypothesis =>
      rw [ofList_concat, foldl_insert_insert item (nodup_ofList key front), inductionHypothesis,
        List.foldl_append, List.foldl_cons, List.foldl_nil]

/-- To insert again what is found under its key changes nothing. -/
theorem foldl_insert_of_find? {key : Item → Key} {items held : List Item}
    (found : ∀ item ∈ items, find? key (key item) held = some item) :
    items.foldl (fun held item => insert key item held) held = held := by
  induction items with
  | nil => rfl
  | cons first rest inductionHypothesis =>
      rw [List.foldl_cons, insert_of_find? (found first List.mem_cons_self)]
      exact inductionHypothesis fun item member => found item (List.mem_cons_of_mem first member)

theorem mem_map_insert_iff {key : Item → Key} {item : Item} {items : List Item} {wanted : Key} :
    wanted ∈ (insert key item items).map key ↔ wanted ∈ items.map key ∨ wanted = key item := by
  rw [map_insert]
  split
  · rename_i declared
    exact ⟨.inl, fun either => either.elim id fun same => same ▸ declared⟩
  · rw [List.mem_append, List.mem_singleton]

/-- An item that replaces another one takes its share of a sum. -/
theorem sum_insert {key : Item → Key} {item old : Item}
    {items : List Item} (found : find? key (key item) items = some old) (measure : Item → Nat) :
    ((insert key item items).map measure).sum + measure old =
      (items.map measure).sum + measure item := by
  induction items with
  | nil => exact absurd found (by simp [find?])
  | cons first rest inductionHypothesis =>
      by_cases same : key first = key item
      · rw [find?, List.find?_cons_of_pos (by simpa using same), Option.some.injEq] at found
        rw [insert, if_pos same, List.map_cons, List.sum_cons, List.map_cons, List.sum_cons, found]
        omega
      · rw [find?, List.find?_cons_of_neg (by simpa using same)] at found
        have later := inductionHypothesis found
        rw [insert, if_neg same, List.map_cons, List.sum_cons, List.map_cons, List.sum_cons]
        omega

end GedcomGrammar.Keyed
