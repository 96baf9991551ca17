/-
This file proves that a catalog takes every line like the schema whose elements it keeps.
-/

import GedcomGrammar.Proofs.Catalog.Stored
import GedcomGrammar.Proofs.Schema.Blocks

namespace GedcomGrammar

/-- A catalog keeps the elements of a schema, and the key of the open spot is open there. -/
structure Tracks (catalog : Catalog) (schema : Schema) : Prop where
  stored : catalog.Stored schema.elements
  opened : catalog.opened.map (fun spot => (catalog.element spot).map Element.key) =
    schema.opened.map .ok
  depthLimit : catalog.depthLimit = schema.depthLimit
  blanks : catalog.blanks = schema.blanks
  waiting : catalog.opened = none → catalog.blanks = 0

/-- No slot is missing in a step, which takes a catalog to the next schema with its error. -/
def Follows (taken : Catalog.Taken) (expected : Schema × Option ParseError) : Prop :=
  ∃ next, taken = .ok (next, expected.2) ∧ Tracks next expected.1

namespace Tracks

variable {catalog : Catalog} {schema : Schema} (tracks : Tracks catalog schema)

include tracks

theorem closed (idle : catalog.opened = none) : schema.opened = none := by
  have same := tracks.opened
  rw [idle, Option.map_none, eq_comm, Option.map_eq_none_iff] at same
  exact same

/-- The open spot holds the element that is open in the schema. -/
theorem exists_open {kind : ElementKind} {slot : Nat} (opened : catalog.opened = some (kind, slot)) :
    ∃ content, (catalog.registry kind).entries[slot]? = some content ∧
      schema.Open (kind.element content) := by
  have same := tracks.opened
  rw [opened, Option.map_some, eq_comm, Option.map_eq_some_iff] at same
  obtain ⟨key, openedKey, access⟩ := same
  obtain ⟨element, accessElement, own⟩ := map_eq_ok_iff.mp access.symm
  obtain ⟨content, present, rfl⟩ := Catalog.element_eq_ok_iff.mp accessElement
  exact ⟨content, present, openedKey.trans (congrArg some own.symm),
    tracks.stored.find?_of_element accessElement⟩

/-- No element is open in either, or the same one is open in both. -/
theorem opened_cases :
    (catalog.opened = none ∧ schema.opened = none) ∨ ∃ kind slot content,
      catalog.opened = some (kind, slot) ∧
        (catalog.registry kind).entries[slot]? = some content ∧
          schema.Open (kind.element content) := by
  cases opened : catalog.opened with
  | none => exact .inl ⟨rfl, tracks.closed opened⟩
  | some spot =>
      obtain ⟨kind, slot⟩ := spot
      obtain ⟨content, present, held⟩ := tracks.exists_open opened
      exact .inr ⟨kind, slot, content, rfl, present, held⟩

theorem isSome_opened : catalog.opened.isSome = schema.opened.isSome := by
  rcases tracks.opened_cases with ⟨idle, closed⟩ | ⟨kind, slot, content, opened, -, held⟩
  · rw [idle, closed]
    rfl
  · rw [opened, held.opened]
    rfl

theorem withBlanks (count : Nat) (waiting : catalog.opened = none → count = 0) :
    Tracks { catalog with blanks := count } (schema.withBlanks count) where
  stored := tracks.stored.congr (fun _ => rfl) rfl
  opened := tracks.opened
  depthLimit := tracks.depthLimit
  blanks := rfl
  waiting := waiting

theorem close : Tracks catalog.close schema.close where
  stored := tracks.stored.congr (fun _ => rfl) rfl
  opened := rfl
  depthLimit := tracks.depthLimit
  blanks := rfl
  waiting _ := rfl

theorem setEntry {kind : ElementKind} {slot : Nat} {content longer : kind.Content}
    (opened : catalog.opened = some (kind, slot))
    (present : (catalog.registry kind).entries[slot]? = some content)
    (same : (kind.element longer).key = (kind.element content).key) :
    Tracks (catalog.setEntry kind slot longer) (schema.insert (kind.element longer)) where
  stored := by
    rw [ElementKind.key_element, ElementKind.key_element, Prod.mk.injEq] at same
    exact tracks.stored.setEntry present same.2
  opened := by
    have access := Catalog.element_eq_ok_iff.mpr ⟨content, present, rfl⟩
    have before := tracks.opened
    rw [opened, Option.map_some, access] at before
    rw [Catalog.setEntry, Catalog.opened_withRegistry, opened, Option.map_some,
      ← Catalog.setEntry, Catalog.element_setEntry_self present]
    exact (congrArg (fun key => some (Except.ok key)) same).trans before
  depthLimit := by
    rw [Catalog.setEntry, Catalog.depthLimit_withRegistry]
    exact tracks.depthLimit
  blanks := by
    rw [Catalog.setEntry, Catalog.blanks_withRegistry]
    exact tracks.blanks
  waiting idle := by
    rw [Catalog.setEntry, Catalog.opened_withRegistry, opened] at idle
    exact absurd idle (by simp)

/-- The open spot takes a line exactly when the open element does. -/
theorem extend (line : Text) :
    Follows (catalog.extend line)
      (match schema.extend line with
        | .error error => (schema, some error)
        | .ok extended => (extended, none)) := by
  rcases tracks.opened_cases with ⟨idle, closed⟩ | ⟨kind, slot, content, opened, present, held⟩
  · rw [Schema.extend_of_closed (Schema.openElement?_of_closed closed), Catalog.extend, idle]
    exact ⟨catalog, rfl, tracks⟩
  · have access := Registry.item_eq_ok_iff.mpr present
    have added := kind.addLine_element content line
    rw [held.extend_eq line, added, Catalog.extend, opened]
    simp only [access]
    cases taken : kind.addLine content line with
    | error error => exact ⟨catalog, rfl, tracks⟩
    | ok longer =>
        rw [taken] at added
        simp only [Registry.put_of_getElem? present]
        exact ⟨catalog.setEntry kind slot longer, rfl,
          tracks.setEntry opened present (Element.key_addLine added)⟩

/-- Blank lines are taken one after another, up to the last. -/
theorem extendBlanks {element extended : Element} (held : schema.Open element) (count : Nat)
    (read : (List.replicate count []).foldlM Element.addLine element = .ok extended) :
    Follows (catalog.extendBlanks count) (schema.insert extended, none) := by
  induction count generalizing catalog schema element with
  | zero =>
      cases Except.ok.inj read
      exact ⟨catalog, rfl, held.insert_self.symm ▸ tracks⟩
  | succ count inductionHypothesis =>
      obtain ⟨longer, added, later⟩ := foldlM_cons_eq_ok_iff.mp read
      obtain ⟨next, taken, follows⟩ := tracks.extend []
      rw [held.extend_eq, added] at taken follows
      have again := inductionHypothesis follows (held.insert (Element.key_addLine added)) later
      rw [Schema.insert_insert (Element.key_foldlM later)] at again
      rw [Catalog.extendBlanks, taken]
      exact again

theorem settleBlanks :
    Follows (({ catalog with blanks := 0 } : Catalog).extendBlanks catalog.blanks)
      (schema.settleBlanks, none) := by
  have emptied := tracks.withBlanks 0 fun _ => rfl
  rcases tracks.opened_cases with ⟨idle, closed⟩ | ⟨kind, slot, content, opened, -, held⟩
  · rw [tracks.waiting idle, Schema.settleBlanks_of_closed (Schema.openElement?_of_closed closed)]
    exact ⟨_, rfl, emptied⟩
  · obtain ⟨extended, read, settled⟩ := held.settleBlanks
    rw [tracks.blanks, settled]
    exact emptied.extendBlanks (held.withBlanks 0) schema.blanks read

theorem addContinuation (line : Text) :
    Follows (catalog.addContinuation line) (schema.addContinuation line) := by
  obtain ⟨settled, taken, follows⟩ := tracks.settleBlanks
  have last := follows.extend line
  rw [Catalog.addContinuation, taken, Schema.addContinuation]
  cases untaken : schema.settleBlanks.extend line with
  | error error =>
      rw [untaken] at last
      exact last
  | ok extended =>
      rw [untaken] at last
      exact last

theorem addBlank : Tracks catalog.addBlank schema.addBlank := by
  rw [Catalog.addBlank, Schema.addBlank, tracks.isSome_opened, tracks.blanks]
  split
  · rename_i waits
    refine tracks.withBlanks (schema.blanks + 1) fun idle => ?_
    rw [← tracks.isSome_opened, idle] at waits
    exact absurd waits (by simp)
  · exact tracks

omit tracks in
/-- A spot may be opened that holds an element. -/
theorem open_spot {elements : List Element} {spot : Spot} {element : Element}
    (stored : catalog.Stored elements) (access : catalog.element spot = .ok element)
    (limit : catalog.depthLimit = schema.depthLimit) :
    Tracks { catalog with opened := some spot, blanks := 0 }
      { schema with elements, opened := some element.key, blanks := 0 } where
  stored := stored.congr (fun _ => rfl) rfl
  opened := by
    change some ((catalog.element spot).map Element.key) = some (.ok element.key)
    rw [access]
    rfl
  depthLimit := limit
  blanks := rfl
  waiting idle := absurd idle (by simp)

/-- An element goes to the slot of its identifier, or to a new one. -/
theorem declare (kind : ElementKind) (content : kind.Content) :
    ∃ next, ({ catalog with blanks := 0 } : Catalog).declare kind content = .ok next ∧
      Tracks next { schema.insert (kind.element content) with
        opened := some (kind.element content).key, blanks := 0 } := by
  have registry : ({ catalog with blanks := 0 } : Catalog).registry kind =
      catalog.registry kind := rfl
  rw [Catalog.declare, registry, Registry.insert]
  cases found : (catalog.registry kind).slot? (kind.identifier content) with
  | some slot =>
      obtain ⟨held, present, same⟩ := (tracks.stored.sound kind).exists_of_slot? found
      have stored := tracks.stored.setEntry present same.symm
      have access := @Catalog.element_setEntry_self catalog kind slot content held present
      have limit : (catalog.setEntry kind slot content).depthLimit = schema.depthLimit := by
        rw [Catalog.setEntry, Catalog.depthLimit_withRegistry]
        exact tracks.depthLimit
      refine ⟨{ catalog.setEntry kind slot content with
        opened := some (kind, slot), blanks := 0 }, ?_, open_spot stored access limit⟩
      simp only [Registry.put_of_getElem? present]
      cases kind <;> rfl
  | none =>
      have stored := tracks.stored.addEntry found
      have access := @Catalog.element_addEntry_self catalog kind content
      have limit : (catalog.addEntry kind content).depthLimit = schema.depthLimit :=
        (catalog.depthLimit_withRegistry _).trans tracks.depthLimit
      refine ⟨{ catalog.addEntry kind content with
        opened := some (kind, (catalog.registry kind).entries.length), blanks := 0 }, ?_,
        open_spot stored access limit⟩
      cases kind <;> rfl

theorem addHeader (line : Text) : Follows (catalog.addHeader line) (schema.addHeader line) := by
  rw [Catalog.addHeader, Schema.addHeader, ElementKind.ofHeader_element]
  cases (Element.headerKind line).ofHeader line with
  | error error => exact ⟨_, rfl, tracks.withBlanks 0 fun _ => rfl⟩
  | ok content =>
      obtain ⟨next, declared, follows⟩ := tracks.declare (Element.headerKind line) content
      exact ⟨next, congrArg (Except.map fun declared => (declared, none)) declared, follows⟩

/-- Every line is taken, with the error that the schema gives. -/
theorem addLine (line : Text) : Follows (catalog.addLine line) (schema.addLine line) := by
  rw [Catalog.addLine, Schema.addLine]
  cases line.withoutLineEnd with
  | nil => exact ⟨_, rfl, tracks.addBlank⟩
  | cons char rest =>
      cases header : Element.isHeader (char :: rest) with
      | true =>
          simp only [header, if_true]
          exact tracks.addHeader (char :: rest)
      | false =>
          simp only [header, Bool.false_eq_true, if_false]
          exact tracks.addContinuation (char :: rest)

theorem addLines (number : Nat) (lines : List Text) :
    Follows (catalog.addLines number lines) (schema.addLines number lines) := by
  induction lines generalizing catalog schema number with
  | nil => exact ⟨catalog, rfl, tracks⟩
  | cons line rest inductionHypothesis =>
      obtain ⟨next, taken, follows⟩ := tracks.addLine line
      rw [Catalog.addLines, taken, Schema.addLines]
      generalize schema.addLine line = result at follows
      obtain ⟨extended, _ | error⟩ := result
      · exact inductionHypothesis follows (number + 1)
      · exact ⟨next, rfl, follows⟩

theorem addText (text : Text) : Follows (catalog.addText text) (schema.addText text) := by
  obtain ⟨next, taken, follows⟩ := tracks.close.addLines 1 text.lines
  rw [Catalog.addText, taken, Schema.addText]
  generalize schema.close.addLines 1 text.lines = result at follows
  obtain ⟨extended, _ | error⟩ := result
  · exact ⟨next.close, rfl, Tracks.close follows⟩
  · exact ⟨next, rfl, follows⟩

theorem take (feed : Feed) : Follows (catalog.take feed) (schema.take feed) := by
  cases feed with
  | line line => exact tracks.addLine line
  | text text => exact tracks.addText text

/-- Any feeds are taken to the end, whichever of them are refused. -/
theorem takeAll (feeds : List Feed) :
    ∃ last, catalog.takeAll feeds = .ok (last, (schema.takeAll feeds).2) ∧
      Tracks last (schema.takeAll feeds).1 := by
  induction feeds generalizing catalog schema with
  | nil => exact ⟨catalog, rfl, tracks⟩
  | cons feed rest inductionHypothesis =>
      obtain ⟨next, taken, follows⟩ := tracks.take feed
      obtain ⟨last, takenAll, followsAll⟩ := inductionHypothesis follows
      refine ⟨last, ?_, followsAll⟩
      rw [Catalog.takeAll, taken]
      simp only [takenAll]
      rfl

end Tracks

theorem tracks_empty (depthLimit : Nat) : Tracks { depthLimit } { depthLimit } where
  stored := Catalog.stored_empty depthLimit
  opened := rfl
  depthLimit := rfl
  blanks := rfl
  waiting _ := rfl

end GedcomGrammar
