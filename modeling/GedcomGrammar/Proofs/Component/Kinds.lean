/-
This file proves which kinds of component are found in a definition.
-/

import GedcomGrammar.Component
import Mathlib.Tactic

namespace GedcomGrammar.Component

theorem KindSet.contains_insert_iff {kinds : KindSet} {added kind : Kind} :
    (kinds.insert added).contains kind = true ↔ kinds.contains kind = true ∨ added = kind := by
  cases added <;> cases kind <;> simp [insert, contains]

theorem KindSet.contains_union_iff {left right : KindSet} {kind : Kind} :
    (left.union right).contains kind = true ↔
      left.contains kind = true ∨ right.contains kind = true := by
  cases kind <;> simp [union, contains]

theorem KindSet.contains_empty (kind : Kind) : ({} : KindSet).contains kind = false := by
  cases kind <;> rfl

theorem KindSet.ext_contains {first second : KindSet}
    (same : ∀ kind, first.contains kind = second.contains kind) : first = second := by
  obtain ⟨primitives, terms, tags, literals⟩ := first
  rw [KindSet.mk.injEq]
  exact ⟨same .primitive, same .term, same .tag, same .literal⟩

/-- Steps that only bring kinds find, from nothing on, the kinds that one of their items brings. -/
theorem KindSet.contains_foldl_iff {Item : Type} {step : KindSet → Item → KindSet}
    {brings : Item → Prop} {kind : Kind} (items : List Item)
    (each : ∀ found item, (step found item).contains kind = true ↔
      found.contains kind = true ∨ brings item) :
    (items.foldl step {}).contains kind = true ↔ ∃ item ∈ items, brings item := by
  have continued (start : KindSet) : (items.foldl step start).contains kind = true ↔
      start.contains kind = true ∨ ∃ item ∈ items, brings item := by
    induction items generalizing start with
    | nil => simp
    | cons item rest inductionHypothesis =>
        rw [List.foldl_cons, inductionHypothesis, each, or_assoc, List.exists_mem_cons_iff]
  rw [continued, contains_empty]
  simp

/-- A kind is found exactly when a component has it. -/
theorem contains_kinds_iff {components : List Component} {kind : Kind} :
    (kinds components).contains kind = true ↔ ∃ component ∈ components, component.kind = kind :=
  KindSet.contains_foldl_iff components fun _ _ => KindSet.contains_insert_iff

/-- A union has the kinds that one of its sets has. -/
theorem KindSet.contains_foldl_union_iff {sets : List KindSet} {kind : Kind} :
    (sets.foldl union {}).contains kind = true ↔ ∃ set ∈ sets, set.contains kind = true :=
  contains_foldl_iff sets fun _ _ => contains_union_iff

end GedcomGrammar.Component
