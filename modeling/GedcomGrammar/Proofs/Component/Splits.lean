/-
This file proves that a text is read as the canonical components that spell it.
-/

import GedcomGrammar.Proofs.Component.Kinds
import GedcomGrammar.Proofs.Component.Leading
import GedcomGrammar.Text.Bytes

namespace GedcomGrammar.Component

variable {component : Component} {components : List Component} {text tail rest : Text}

theorem Blocked.opens (blocked : Blocked text) : Opens text := by
  obtain ⟨opener, closer, rest, listed, rfl, -⟩ := blocked
  obtain ⟨kind, opened⟩ := exists_opened?_iff.mpr listed
  intro char first
  rw [List.head?_cons, Option.some.injEq] at first
  rw [← first, isPlain, opened]
  rfl

theorem canonical_nil : Canonical [] :=
  ⟨by simp, .nil⟩

theorem canonical_cons_iff :
    Canonical (component :: components) ↔
      component.Proper ∧ (∀ next, components.head? = some next → component.Apart next) ∧
        Canonical components := by
  constructor
  · rintro ⟨proper, apart⟩
    obtain ⟨here, later⟩ := List.forall_mem_cons.mp proper
    obtain ⟨first, others⟩ := List.isChain_cons.mp apart
    exact ⟨here, first, later, others⟩
  · rintro ⟨here, first, later, others⟩
    exact ⟨List.forall_mem_cons.mpr ⟨here, later⟩, List.isChain_cons.mpr ⟨first, others⟩⟩

theorem definition_cons : definition (component :: components) =
    component.text ++ definition components :=
  List.flatMap_cons

/-- Only literal text begins with a character that opens nothing. -/
theorem opens_text_append_iff (proper : component.Proper) :
    Opens (component.text ++ rest) ↔ component.kind ≠ .literal := by
  cases delimited : component.kind.delimiters? with
  | some delimiters =>
      obtain ⟨opener, closer⟩ := delimiters
      have reference : component.kind ≠ .literal := by
        rw [ne_eq, ← Kind.delimiters?_eq_none_iff, delimited]
        exact Option.some_ne_none _
      refine iff_of_true (fun char first => ?_) reference
      rw [text_of_delimiters? delimited, List.cons_append, List.cons_append, List.head?_cons,
        Option.some.injEq] at first
      rw [← first, isPlain, Kind.opened?_eq_some_iff.mpr delimited]
      rfl
  | none =>
      have literal := Kind.delimiters?_eq_none_iff.mp delimited
      obtain ⟨nonempty, plain⟩ := (proper_iff_of_literal literal).mp proper
      refine iff_of_false (fun opens => ?_) (not_not.mpr literal)
      obtain ⟨head, later, value⟩ := List.exists_cons_of_ne_nil nonempty
      have refused := opens head (by rw [text_of_literal literal, value]; rfl)
      have accepted := plain head (by rw [value]; exact List.mem_cons_self)
      exact absurd (refused.symm.trans accepted) (by decide)

/-- Components are followed by an opening delimiter unless they begin with literal text. -/
theorem opens_definition_append_iff (canonical : Canonical components) (opens : Opens tail) :
    Opens (definition components ++ tail) ↔
      ∀ next, components.head? = some next → next.kind ≠ .literal := by
  cases components with
  | nil => exact iff_of_true opens (by simp)
  | cons component others =>
      rw [definition_cons, List.append_assoc,
        opens_text_append_iff (canonical.proper component List.mem_cons_self)]
      simp

/-- A text is made of components up to its end, or up to a place where none begins. -/
structure Splits (text : Text) (components : List Component) (tail : Text) : Prop where
  canonical : Canonical components
  joined : text = definition components ++ tail
  ends : tail = [] ∨ Blocked tail

theorem Splits.opens (splits : Splits text components tail) : Opens tail := by
  rcases splits.ends with rfl | blocked
  · simp [Opens]
  · exact blocked.opens

/-- The first component of a split text is read first, and leaves a text that splits. -/
theorem splits_cons_iff :
    Splits text (component :: components) tail ↔
      ∃ rest, leading? text = some (component, rest) ∧ Splits rest components tail := by
  constructor
  · intro splits
    obtain ⟨proper, apart, canonical⟩ := canonical_cons_iff.mp splits.canonical
    refine ⟨definition components ++ tail, leading?_eq_some_iff.mpr ⟨proper, ?_, fun literal => ?_⟩,
      canonical, rfl, splits.ends⟩
    · rw [splits.joined, definition_cons, List.append_assoc]
    · exact (opens_definition_append_iff canonical splits.opens).mpr
        fun next first => apart next first literal
  · rintro ⟨rest, found, splits⟩
    obtain ⟨proper, rfl, opens⟩ := leading?_eq_some_iff.mp found
    have clear (literal : component.kind = .literal) := opens literal
    rw [splits.joined, opens_definition_append_iff splits.canonical splits.opens] at clear
    refine ⟨canonical_cons_iff.mpr ⟨proper, fun next first literal => clear literal next first,
      splits.canonical⟩, ?_, splits.ends⟩
    rw [splits.joined, definition_cons, List.append_assoc]

theorem exists_splits (text : Text) : ∃ components tail, Splits text components tail := by
  cases found : leading? text with
  | none =>
      refine ⟨[], text, canonical_nil, rfl, ?_⟩
      by_cases empty : text = []
      · exact .inl empty
      · exact .inr (blocked_iff.mpr ⟨empty, found⟩)
  | some first =>
      obtain ⟨component, rest⟩ := first
      have := leading?_length_lt found
      obtain ⟨components, tail, splits⟩ := exists_splits rest
      exact ⟨component :: components, tail, splits_cons_iff.mpr ⟨rest, found, splits⟩⟩
termination_by text.length

namespace Cursor

variable {cursor after : Cursor}

/-- The place after a component that begins at a place. -/
def past (cursor : Cursor) (component : Component) (rest : Text) : Cursor :=
  { cursor with offset := cursor.offset + Text.utf8Length component.text, rest }

theorem next_of_leading? (found : leading? cursor.rest = some (component, rest)) :
    cursor.next = .ok (some (component, cursor.past component rest)) := by
  unfold next
  split
  · rename_i ended
    rw [ended] at found
    exact absurd found (by simp [leading?])
  · rw [found]
    rfl

theorem next_of_nil (ended : cursor.rest = []) : cursor.next = .ok none := by
  rw [next, ended]

theorem next_of_blocked (blocked : Blocked cursor.rest) : cursor.next = .error cursor.error := by
  obtain ⟨nonempty, missing⟩ := blocked_iff.mp blocked
  unfold next
  split
  · rename_i ended
    exact absurd ended nonempty
  · rw [missing]

/-- The fault at the place after some components. -/
def fault (cursor : Cursor) (components : List Component) : Unmatched :=
  ⟨cursor.offset + Text.utf8Length (Component.definition components), cursor.definition⟩

theorem fault_nil (cursor : Cursor) : cursor.fault [] = cursor.error :=
  rfl

theorem fault_past (cursor : Cursor) (component : Component) (rest : Text)
    (components : List Component) :
    (cursor.past component rest).fault components = cursor.fault (component :: components) := by
  rw [fault, fault, past, definition_cons, Text.utf8Length_append, Nat.add_assoc]

theorem remaining_of_next_some {component : Component}
    (found : cursor.next = .ok (some (component, after))) :
    cursor.remaining = after.remaining.map (component :: ·) := by
  rw [remaining]
  split
  · rename_i failed
    exact absurd (failed.symm.trans found) (by simp)
  · rename_i ended
    exact absurd (ended.symm.trans found) (by simp)
  · rename_i other later step
    rw [found] at step
    simp only [Except.ok.injEq, Option.some.injEq, Prod.mk.injEq] at step
    obtain ⟨rfl, rfl⟩ := step
    cases after.remaining <;> rfl

theorem remaining_of_next_none (ended : cursor.next = .ok none) : cursor.remaining = .ok [] := by
  rw [remaining]
  split <;> simp_all

theorem remaining_of_next_error {error : Unmatched} (failed : cursor.next = .error error) :
    cursor.remaining = .error error := by
  rw [remaining]
  split <;> simp_all

/-- The components of a split text are all read, and then there is an end or a fault. -/
theorem remaining_of_splits (splits : Splits cursor.rest components tail) :
    cursor.remaining = if tail = [] then .ok components else .error (cursor.fault components) := by
  induction components generalizing cursor with
  | nil =>
      have same : cursor.rest = tail := splits.joined
      rcases splits.ends with ended | blocked
      · rw [if_pos ended, remaining_of_next_none (next_of_nil (same.trans ended))]
      · rw [if_neg (blocked_iff.mp blocked).1,
          remaining_of_next_error (next_of_blocked (same ▸ blocked)), fault_nil]
  | cons component components inductionHypothesis =>
      obtain ⟨rest, found, later⟩ := splits_cons_iff.mp splits
      have continued := @inductionHypothesis (cursor.past component rest) later
      rw [remaining_of_next_some (next_of_leading? found), continued, fault_past]
      split <;> rfl

/-- Once there is an end or a fault, each further step gives it again. -/
theorem steps_of_splits (splits : Splits cursor.rest components tail) (count : Nat) :
    cursor.steps count =
      ((components.map fun component => .ok (some component)).take count) ++
        List.replicate (count - components.length)
          (if tail = [] then .ok none else .error (cursor.fault components)) := by
  induction count generalizing cursor components with
  | zero => simp [steps]
  | succ count inductionHypothesis =>
      cases components with
      | nil =>
          have same : cursor.rest = tail := splits.joined
          rw [steps]
          rcases splits.ends with ended | blocked
          · rw [next_of_nil (same.trans ended), inductionHypothesis splits]
            simp [List.replicate_succ, ended]
          · rw [next_of_blocked (same ▸ blocked), inductionHypothesis splits]
            simp [List.replicate_succ, fault_nil, (blocked_iff.mp blocked).1]
      | cons component components =>
          obtain ⟨rest, found, later⟩ := splits_cons_iff.mp splits
          have continued := @inductionHypothesis _ (cursor.past component rest) later
          rw [steps, next_of_leading? found]
          dsimp only
          rw [continued, fault_past]
          simp

end Cursor

variable {definition : Text}

theorem ofDefinition_of_splits (splits : Splits definition components tail) :
    ofDefinition definition =
      if tail = [] then .ok components
      else .error ⟨Text.utf8Length (Component.definition components), definition⟩ := by
  have remaining := @Cursor.remaining_of_splits _ _ (Cursor.start definition) splits
  rw [ofDefinition, remaining, Cursor.fault, Cursor.start, Nat.zero_add]

theorem splits_nil_iff :
    Splits definition components [] ↔
      Canonical components ∧ Component.definition components = definition := by
  constructor
  · intro splits
    exact ⟨splits.canonical, by rw [splits.joined, List.append_nil]⟩
  · rintro ⟨canonical, joined⟩
    exact ⟨canonical, by rw [joined, List.append_nil], .inl rfl⟩

theorem ofDefinition_eq_ok_iff :
    ofDefinition definition = .ok components ↔
      Canonical components ∧ Component.definition components = definition := by
  rw [← splits_nil_iff]
  constructor
  · intro read
    obtain ⟨parts, tail, splits⟩ := exists_splits definition
    rw [ofDefinition_of_splits splits] at read
    split at read
    · rename_i ended
      rw [ended, Except.ok.inj read] at splits
      exact splits
    · exact absurd read (by simp)
  · intro splits
    rw [ofDefinition_of_splits splits, if_pos rfl]

/--
A definition is read as the only canonical components that spell it.
The kinds that are found on the way are those that occur.
-/
theorem reads_iff (definition : Text) (components : List Component) (found : KindSet) :
    ofDefinition definition = .ok components ∧ kinds components = found ↔
      Canonical components ∧ Component.definition components = definition ∧
        ∀ kind, found.contains kind = true ↔ ∃ component ∈ components, component.kind = kind := by
  rw [ofDefinition_eq_ok_iff, and_assoc]
  refine and_congr_right fun _ => and_congr_right fun _ => ?_
  constructor
  · rintro rfl kind
    exact contains_kinds_iff
  · intro occurs
    refine KindSet.ext_contains fun kind => ?_
    rw [Bool.eq_iff_iff, contains_kinds_iff, occurs]

end GedcomGrammar.Component
