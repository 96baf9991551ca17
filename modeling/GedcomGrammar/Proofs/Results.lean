/-
This file proves when a chain of steps that may fail gives a result.
-/

import Mathlib.Tactic

namespace GedcomGrammar

variable {Error Value Other : Type}

theorem bind_eq_ok_iff {first : Except Error Value} {next : Value → Except Error Other}
    {result : Other} :
    (first >>= next) = .ok result ↔ ∃ value, first = .ok value ∧ next value = .ok result := by
  cases first with
  | error error => simp [bind, Except.bind]
  | ok value => simp [bind, Except.bind]

theorem map_eq_ok_iff {first : Except Error Value} {change : Value → Other} {result : Other} :
    first.map change = .ok result ↔ ∃ value, first = .ok value ∧ change value = result := by
  cases first with
  | error error => simp [Except.map]
  | ok value => simp [Except.map]

theorem exists_map_eq_ok_iff {first : Except Error Value} {change : Value → Other} :
    (∃ result, first.map change = .ok result) ↔ ∃ value, first = .ok value := by
  cases first <;> simp [Except.map]

theorem map_eq_error_iff {first : Except Error Value} {change : Value → Other} {error : Error} :
    first.map change = .error error ↔ first = .error error := by
  cases first <;> simp [Except.map]

theorem foldlM_cons_eq_ok_iff {step : Value → Other → Except Error Value} {start result : Value}
    {item : Other} {rest : List Other} :
    (item :: rest).foldlM step start = .ok result ↔
      ∃ next, step start item = .ok next ∧ rest.foldlM step next = .ok result := by
  rw [List.foldlM_cons, bind_eq_ok_iff]

theorem foldlM_append_eq_ok_iff {step : Value → Other → Except Error Value} {start result : Value}
    {front back : List Other} :
    (front ++ back).foldlM step start = .ok result ↔
      ∃ next, front.foldlM step start = .ok next ∧ back.foldlM step next = .ok result := by
  rw [List.foldlM_append, bind_eq_ok_iff]

theorem foldlM_concat_eq_ok_iff {step : Value → Other → Except Error Value} {start result : Value}
    {front : List Other} {item : Other} :
    (front ++ [item]).foldlM step start = .ok result ↔
      ∃ next, front.foldlM step start = .ok next ∧ step next item = .ok result := by
  have single (next : Value) : [item].foldlM step next = step next item := by
    rw [List.foldlM_cons]
    cases step next item <;> rfl
  simp only [foldlM_append_eq_ok_iff, single]

theorem mapM_nil_eq_ok_iff {make : Other → Except Error Value} {values : List Value} :
    [].mapM make = .ok values ↔ values = [] := by
  rw [List.mapM_nil]
  exact ⟨fun same => (Except.ok.inj same).symm, fun same => congrArg Except.ok same.symm⟩

theorem mapM_cons_eq_ok_iff {make : Other → Except Error Value} {item : Other} {rest : List Other}
    {values : List Value} :
    (item :: rest).mapM make = .ok values ↔
      ∃ first later, make item = .ok first ∧ rest.mapM make = .ok later ∧
        values = first :: later := by
  simp only [List.mapM_cons, bind_eq_ok_iff]
  constructor
  · intro made
    obtain ⟨first, madeFirst, later, madeLater, same⟩ := made
    exact ⟨first, later, madeFirst, madeLater, (Except.ok.inj same).symm⟩
  · intro made
    obtain ⟨first, later, madeFirst, madeLater, rfl⟩ := made
    exact ⟨first, madeFirst, later, madeLater, rfl⟩

theorem mapM_concat_eq_ok_iff {make : Other → Except Error Value} {items : List Other}
    {item : Other} {values : List Value} :
    (items ++ [item]).mapM make = .ok values ↔
      ∃ front last, items.mapM make = .ok front ∧ make item = .ok last ∧
        values = front ++ [last] := by
  simp only [List.mapM_append, bind_eq_ok_iff, mapM_cons_eq_ok_iff, mapM_nil_eq_ok_iff]
  constructor
  · intro made
    obtain ⟨front, madeFront, _, ⟨last, _, madeLast, rfl, rfl⟩, same⟩ := made
    exact ⟨front, last, madeFront, madeLast, (Except.ok.inj same).symm⟩
  · intro made
    obtain ⟨front, last, madeFront, madeLast, rfl⟩ := made
    exact ⟨front, madeFront, [last], ⟨last, [], madeLast, rfl, rfl⟩, rfl⟩

/-- Every item is made into a value, and every value is made from an item. -/
theorem exists_of_mapM_eq_ok {make : Other → Except Error Value} {items : List Other}
    {values : List Value} (made : items.mapM make = .ok values) :
    (∀ value ∈ values, ∃ item ∈ items, make item = .ok value) ∧
      ∀ item ∈ items, ∃ value ∈ values, make item = .ok value := by
  induction items generalizing values with
  | nil => simp [mapM_nil_eq_ok_iff.mp made]
  | cons item rest inductionHypothesis =>
      obtain ⟨first, later, madeFirst, madeLater, rfl⟩ := mapM_cons_eq_ok_iff.mp made
      obtain ⟨fromItem, toValue⟩ := inductionHypothesis madeLater
      constructor
      · intro value member
        rcases List.mem_cons.mp member with rfl | later
        · exact ⟨item, List.mem_cons_self, madeFirst⟩
        · obtain ⟨origin, inside, same⟩ := fromItem value later
          exact ⟨origin, List.mem_cons_of_mem item inside, same⟩
      · intro other member
        rcases List.mem_cons.mp member with rfl | later
        · exact ⟨first, List.mem_cons_self, madeFirst⟩
        · obtain ⟨value, inside, same⟩ := toValue other later
          exact ⟨value, List.mem_cons_of_mem first inside, same⟩

theorem mapM_congr {make other : Other → Except Error Value} {items : List Other}
    (same : ∀ item ∈ items, make item = other item) : items.mapM make = items.mapM other := by
  induction items with
  | nil => rfl
  | cons item rest inductionHypothesis =>
      obtain ⟨here, later⟩ := List.forall_mem_cons.mp same
      rw [List.mapM_cons, List.mapM_cons, here, inductionHypothesis later]

theorem mapM_of_map {make : Other → Except Error Value} {items : List Other} {values : List Value}
    (made : items.map make = values.map .ok) : items.mapM make = .ok values := by
  induction items generalizing values with
  | nil =>
      rw [List.map_nil, eq_comm, List.map_eq_nil_iff] at made
      exact mapM_nil_eq_ok_iff.mpr made
  | cons item rest inductionHypothesis =>
      cases values with
      | nil => exact absurd made (by simp)
      | cons first later =>
          rw [List.map_cons, List.map_cons, List.cons.injEq] at made
          exact mapM_cons_eq_ok_iff.mpr
            ⟨first, later, made.1, inductionHypothesis made.2, rfl⟩

/-- All values are made exactly when each of them is. -/
theorem exists_mapM_eq_ok_iff {make : Other → Except Error Value} {items : List Other} :
    (∃ values, items.mapM make = .ok values) ↔ ∀ item ∈ items, ∃ value, make item = .ok value := by
  induction items with
  | nil => exact ⟨fun _ _ member => absurd member List.not_mem_nil, fun _ => ⟨[], rfl⟩⟩
  | cons item rest inductionHypothesis =>
      rw [List.forall_mem_cons, ← inductionHypothesis]
      constructor
      · intro made
        obtain ⟨values, made⟩ := made
        obtain ⟨first, later, madeFirst, madeLater, -⟩ := mapM_cons_eq_ok_iff.mp made
        exact ⟨⟨first, madeFirst⟩, later, madeLater⟩
      · intro made
        obtain ⟨⟨first, madeFirst⟩, later, madeLater⟩ := made
        exact ⟨first :: later, mapM_cons_eq_ok_iff.mpr ⟨first, later, madeFirst, madeLater, rfl⟩⟩

/-- Where one maker differs from another only by one error, so it does on a list. -/
theorem mapM_eq_or_eq_error {make other : Other → Except Error Value} {error : Error}
    (agrees : ∀ item, make item = other item ∨ make item = .error error) (items : List Other) :
    items.mapM make = items.mapM other ∨ items.mapM make = .error error := by
  induction items with
  | nil => exact .inl rfl
  | cons item rest inductionHypothesis =>
      rw [List.mapM_cons, List.mapM_cons]
      rcases agrees item with same | failed
      · rw [same]
        cases other item with
        | error fault => exact .inl rfl
        | ok value =>
            rcases inductionHypothesis with sameRest | failedRest
            · rw [sameRest]
              exact .inl rfl
            · rw [failedRest]
              exact .inr rfl
      · rw [failed]
        exact .inr rfl

/-- The first item that cannot be made gives the error. -/
theorem mapM_cons_eq_error_iff {make : Other → Except Error Value} {item : Other}
    {rest : List Other} {error : Error} :
    (item :: rest).mapM make = .error error ↔
      make item = .error error ∨
        (∃ value, make item = .ok value) ∧ rest.mapM make = .error error := by
  rw [List.mapM_cons]
  cases make item with
  | error fault => simp [bind, Except.bind]
  | ok value =>
      cases rest.mapM make with
      | error fault => simp [bind, Except.bind]
      | ok values => simp [bind, Except.bind, pure, Except.pure]

theorem mapM_append_of_error {make : Other → Except Error Value} {front : List Other}
    {error : Error} (failed : front.mapM make = .error error) (back : List Other) :
    (front ++ back).mapM make = .error error := by
  rw [List.mapM_append, failed]
  rfl

/-- A list fails with the error of an item, and every item before that one can be made. -/
theorem mapM_eq_error_iff {make : Other → Except Error Value} {items : List Other}
    {error : Error} :
    items.mapM make = .error error ↔
      ∃ before item after, items = before ++ item :: after ∧
        (∀ earlier ∈ before, ∃ value, make earlier = .ok value) ∧ make item = .error error := by
  constructor
  · intro failed
    induction items with
    | nil => exact absurd failed (by simp [pure, Except.pure])
    | cons item rest inductionHypothesis =>
        rcases mapM_cons_eq_error_iff.mp failed with here | ⟨made, later⟩
        · exact ⟨[], item, rest, rfl, List.forall_mem_nil _, here⟩
        · obtain ⟨before, other, after, rfl, madeBefore, failedOther⟩ := inductionHypothesis later
          exact ⟨item :: before, other, after, rfl,
            List.forall_mem_cons.mpr ⟨made, madeBefore⟩, failedOther⟩
  · rintro ⟨before, item, after, rfl, made, failed⟩
    induction before with
    | nil => exact mapM_cons_eq_error_iff.mpr (.inl failed)
    | cons first before inductionHypothesis =>
        obtain ⟨madeFirst, madeLater⟩ := List.forall_mem_cons.mp made
        exact mapM_cons_eq_error_iff.mpr (.inr ⟨madeFirst, inductionHypothesis madeLater⟩)

theorem exists_of_mapM_eq_error {make : Other → Except Error Value} {items : List Other}
    {error : Error} (failed : items.mapM make = .error error) :
    ∃ item ∈ items, make item = .error error := by
  obtain ⟨before, item, after, rfl, -, failedItem⟩ := mapM_eq_error_iff.mp failed
  exact ⟨item, List.mem_append_right before List.mem_cons_self, failedItem⟩

theorem map_mapError {Renamed Changed : Type} (rename : Error → Renamed)
    (change : Value → Changed) (result : Except Error Value) :
    (result.mapError rename).map change = (result.map change).mapError rename := by
  cases result <;> rfl

/-- Errors may be renamed one by one or all at once. -/
theorem mapM_mapError {Renamed : Type} (rename : Error → Renamed)
    (make : Other → Except Error Value) (items : List Other) :
    items.mapM (fun item => (make item).mapError rename) = (items.mapM make).mapError rename := by
  induction items with
  | nil => rfl
  | cons item rest inductionHypothesis =>
      rw [List.mapM_cons, List.mapM_cons, inductionHypothesis]
      cases make item with
      | error fault => rfl
      | ok value =>
          cases rest.mapM make with
          | error fault => rfl
          | ok values => rfl

/-- A chain that makes one value after another and adds each at once may add them all at the end. -/
theorem foldlM_map {State : Type} (make : Other → Except Error Value) (add : State → Value → State)
    (items : List Other) (start : State) :
    items.foldlM (fun state item => (make item).map (add state)) start =
      (items.mapM make).map fun values => values.foldl add start := by
  induction items generalizing start with
  | nil => rfl
  | cons item rest inductionHypothesis =>
      rw [List.foldlM_cons, List.mapM_cons]
      cases make item with
      | error fault => rfl
      | ok value =>
          have later := inductionHypothesis (add start value)
          simp only [Except.map, bind, Except.bind] at later ⊢
          rw [later]
          cases rest.mapM make with
          | error fault => rfl
          | ok values => rfl

/-- What every step keeps is kept by the whole chain. -/
theorem foldlM_keeps {step : Value → Other → Except Error Value} {kept : Value → Prop}
    {items : List Other} {start result : Value} (holds : kept start)
    (keeps : ∀ value item next, item ∈ items → kept value → step value item = .ok next → kept next)
    (run : items.foldlM step start = .ok result) : kept result := by
  induction items generalizing start with
  | nil => exact Except.ok.inj run ▸ holds
  | cons item rest inductionHypothesis =>
      obtain ⟨next, first, later⟩ := foldlM_cons_eq_ok_iff.mp run
      exact inductionHypothesis (keeps start item next List.mem_cons_self holds first)
        (fun value other after member => keeps value other after (List.mem_cons_of_mem item member))
        later

end GedcomGrammar
