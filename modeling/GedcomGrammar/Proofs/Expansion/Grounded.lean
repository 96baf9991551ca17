/-
This file proves for which primitives a pattern can be made.
-/

import GedcomGrammar.Proofs.Expansion.Levels
import GedcomGrammar.References

namespace GedcomGrammar.Schema

variable {schema : Schema} {bound : Nat} {expand : Primitive → Except PatternError Pattern}

/-- A component gets a pattern when the name it refers to, if any, stands for something. -/
theorem exists_componentPattern_iff {component : Component} :
    (∃ pattern, schema.componentPattern expand bound component = .ok pattern) ↔
      (component.kind = .primitive →
        ((∃ target, schema.primitive? component.value = some target) ∨
          ∃ leaf, Leaf.ofLabel? component.value = some leaf) ∧
        ∀ target, schema.primitive? component.value = some target →
          ∃ pattern, expand target = .ok pattern) := by
  unfold componentPattern referencePattern
  split
  · rename_i refers
    rw [imp_iff_right refers]
    split
    · rename_i target found
      simp [found]
    · rename_i missing
      split
      · rename_i leaf named
        simp [missing, named]
      · rename_i unnamed
        simp [missing, unnamed]
  · rename_i other
    exact iff_of_true ⟨_, rfl⟩ fun refers => absurd refers other

theorem exists_definitionPattern_iff {definition : Text} :
    (∃ pattern, schema.definitionPattern expand bound definition = .ok pattern) ↔
      ∃ components, Component.ofDefinition definition = .ok components ∧
        ∀ component ∈ components, ∃ pattern,
          schema.componentPattern expand bound component = .ok pattern := by
  unfold definitionPattern
  cases read : Component.ofDefinition definition with
  | error error => simp
  | ok components =>
      simp only [Except.ok.injEq, exists_eq_left', exists_map_eq_ok_iff, exists_mapM_eq_ok_iff]

/-- All alternatives get patterns when the primitive resolves and its links lead to patterns. -/
theorem forall_exists_definitionPattern_iff {primitive : Primitive}
    (composite : Leaf.ofLabel? primitive.label = none) :
    (∀ definition ∈ primitive.alternatives.definitions, ∃ pattern,
        schema.definitionPattern expand bound definition = .ok pattern) ↔
      schema.Resolves primitive ∧
        ∀ target, schema.Links primitive target → ∃ pattern, expand target = .ok pattern := by
  simp only [exists_definitionPattern_iff, exists_componentPattern_iff]
  constructor
  · intro made
    have mentioned {name : Text} (mentions : primitive.Mentions name) :
        ((∃ target, schema.primitive? name = some target) ∨
          ∃ leaf, Leaf.ofLabel? name = some leaf) ∧
        ∀ target, schema.primitive? name = some target →
          ∃ pattern, expand target = .ok pattern := by
      obtain ⟨-, definition, listed, components, read, member⟩ := mentions
      obtain ⟨componentsAlso, readAlso, each⟩ := made definition listed
      obtain rfl := Except.ok.inj (read.symm.trans readAlso)
      exact each _ member rfl
    refine ⟨⟨fun _ definition listed => ?_, fun name mentions => (mentioned mentions).1⟩, ?_⟩
    · obtain ⟨components, read, -⟩ := made definition listed
      exact ⟨components, read⟩
    · intro target links
      obtain ⟨name, mentions, found⟩ := links
      exact (mentioned mentions).2 target found
  · rintro ⟨resolves, expands⟩ definition listed
    obtain ⟨components, read⟩ := resolves.readable composite definition listed
    refine ⟨components, read, fun component member refers => ?_⟩
    have mentions : primitive.Mentions component.value :=
      ⟨composite, definition, listed, components, read, refers ▸ member⟩
    exact ⟨resolves.known _ mentions, fun target found => expands target ⟨_, mentions, found⟩⟩

/-- With one more level the primitive has to resolve, and its links to have patterns below it. -/
theorem exists_primitivePattern_succ_iff {levels : Nat} {cap : Option Nat} {primitive : Primitive} :
    (∃ pattern, schema.primitivePattern (levels + 1) cap primitive = .ok pattern) ↔
      schema.Resolves primitive ∧ ∀ target, schema.Links primitive target → ∃ pattern,
        schema.primitivePattern levels (some (primitive.boundUnder cap)) target = .ok pattern := by
  rw [primitivePattern]
  split
  · rename_i leaf named
    have silent (name : Text) : ¬primitive.Mentions name :=
      fun mentions => absurd (named.symm.trans mentions.1) (by simp)
    refine iff_of_true ⟨_, rfl⟩ ⟨⟨fun composite => ?_, fun name mentions => ?_⟩, ?_⟩
    · exact absurd (named.symm.trans composite) (by simp)
    · exact absurd mentions (silent name)
    · rintro target ⟨name, mentions, -⟩
      exact absurd mentions (silent name)
  · rename_i composite
    rw [← forall_exists_definitionPattern_iff composite, exists_map_eq_ok_iff,
      exists_mapM_eq_ok_iff]

theorem forall_chain_iff {property : Nat → Primitive → Prop} {primitive : Primitive} :
    (∀ count reached, schema.Chain count primitive reached → property count reached) ↔
      property 0 primitive ∧ ∀ next, schema.Links primitive next →
        ∀ count reached, schema.Chain count next reached → property (count + 1) reached := by
  constructor
  · intro all
    exact ⟨all 0 primitive .start, fun next first count reached later =>
      all (count + 1) reached (.link first later)⟩
  · rintro ⟨here, beyond⟩ count reached chain
    cases chain with
    | start => exact here
    | link first later => exact beyond _ first _ _ later

/-- The levels must reach to the end of every chain, and every primitive on the way must resolve. -/
theorem exists_primitivePattern_iff {levels : Nat} {cap : Option Nat} {primitive : Primitive} :
    (∃ pattern, schema.primitivePattern levels cap primitive = .ok pattern) ↔
      ∀ count reached, schema.Chain count primitive reached →
        schema.Resolves reached ∧ count < levels := by
  induction levels generalizing cap primitive with
  | zero =>
      refine iff_of_false (by simp [primitivePattern]) fun all => ?_
      exact absurd (all 0 primitive .start).2 (Nat.lt_irrefl 0)
  | succ levels inductionHypothesis =>
      rw [exists_primitivePattern_succ_iff, forall_chain_iff]
      simp only [inductionHypothesis, Nat.succ_lt_succ_iff, Nat.zero_lt_succ, and_true]

theorem exists_pattern_iff_grounded {cap : Option Nat} {primitive : Primitive} :
    (∃ pattern, schema.pattern primitive cap = .ok pattern) ↔ schema.Grounded primitive := by
  simp only [pattern, levels, exists_primitivePattern_iff, Nat.lt_succ_iff, Grounded]

section Chains

variable {first second third : Primitive} {before after : Nat}

theorem Chain.append (left : schema.Chain before first second)
    (right : schema.Chain after second third) : schema.Chain (before + after) first third := by
  induction left with
  | start => rwa [Nat.zero_add]
  | link link later inductionHypothesis =>
      rw [Nat.add_right_comm]
      exact .link link (inductionHypothesis right)

/-- A chain that returns to its start can be walked any number of times. -/
theorem Chain.repeated (round : schema.Chain after first first) (times : Nat) :
    schema.Chain (times * after) first first := by
  induction times with
  | zero =>
      rw [Nat.zero_mul]
      exact .start
  | succ times inductionHypothesis =>
      rw [Nat.succ_mul]
      exact inductionHypothesis.append round

/-- No number of levels is enough to go to the end of a circle within reach. -/
theorem exists_error_of_circle (lead : schema.Chain before first second)
    (circle : schema.Chain (after + 1) second second) (levels : Nat) (cap : Option Nat) :
    ∃ error, schema.primitivePattern levels cap first = .error error := by
  cases made : schema.primitivePattern levels cap first with
  | error error => exact ⟨error, rfl⟩
  | ok pattern =>
      have long := lead.append (circle.repeated levels)
      have short := (exists_primitivePattern_iff.mp ⟨pattern, made⟩ _ _ long).2
      have rounds : levels ≤ levels * (after + 1) :=
        Nat.le_mul_of_pos_right _ (Nat.succ_pos after)
      omega

theorem not_grounded_of_circle (lead : schema.Chain before first second)
    (circle : schema.Chain (after + 1) second second) : ¬schema.Grounded first := by
  intro grounded
  obtain ⟨pattern, made⟩ := (@exists_pattern_iff_grounded schema none first).mpr grounded
  obtain ⟨error, failed⟩ := exists_error_of_circle lead circle schema.levels none
  exact absurd (made.symm.trans failed) (by simp)

end Chains

/--
A primitive has a pattern exactly when it is grounded, whatever the cap.
A circle of references within reach leaves it without one, and a larger limit keeps the pattern.
-/
theorem exists_pattern_iff (schema : Schema) (primitive : Primitive) (cap : Option Nat) :
    ((∃ pattern, schema.pattern primitive cap = .ok pattern) ↔ schema.Grounded primitive) ∧
      (∀ before around circular, schema.Chain before primitive circular →
        schema.Chain (around + 1) circular circular →
        ∃ error, schema.pattern primitive cap = .error error) ∧
      (∀ other, (∃ pattern, schema.pattern primitive cap = .ok pattern) ↔
        ∃ pattern, schema.pattern primitive other = .ok pattern) ∧
      ∀ limit pattern, schema.depthLimit ≤ limit → schema.pattern primitive cap = .ok pattern →
        (schema.withDepthLimit limit).pattern primitive cap = .ok pattern := by
  refine ⟨exists_pattern_iff_grounded, ?_, ?_, ?_⟩
  · intro before around circular lead circle
    cases made : schema.pattern primitive cap with
    | error error => exact ⟨error, rfl⟩
    | ok pattern =>
        have grounded := exists_pattern_iff_grounded.mp ⟨pattern, made⟩
        exact absurd grounded (not_grounded_of_circle lead circle)
  · intro other
    rw [exists_pattern_iff_grounded, exists_pattern_iff_grounded]
  · intro limit pattern larger made
    have kept := primitivePattern_of_le made (Nat.succ_le_succ larger)
    exact (primitivePattern_withDepthLimit limit _ cap primitive).trans
      (congrArg (Except.mapError _) kept)

/-- A primitive with one alternative, which is a reference. -/
def referring (label target : String) : Primitive where
  label := label.toList
  sizeMin := 1
  sizeMax := 9
  alternatives := .ofText target.toList

theorem mentions_of_referring {label target name : String}
    (composite : Leaf.ofLabel? (referring label target).label = none)
    (listed : (referring label target).alternatives.definitions = [target.toList])
    (read : Component.ofDefinition target.toList = .ok [⟨.primitive, name.toList⟩]) :
    (referring label target).Mentions name.toList := by
  refine ⟨composite, target.toList, ?_, _, read, List.mem_singleton_self _⟩
  rw [listed]
  exact List.mem_singleton_self _

def couple : Schema where
  elements := [.primitive (referring "HUSBAND" "<WIFE>"), .primitive (referring "WIFE" "<HUSBAND>"),
    .primitive (referring "CHILD" "<NUMBER>")]

/-- Spouses that refer to each other have no pattern, and their child keeps its own. -/
theorem pattern_of_couple :
    couple.Chain 2 (referring "HUSBAND" "<WIFE>") (referring "HUSBAND" "<WIFE>") ∧
      (∃ error, couple.pattern (referring "HUSBAND" "<WIFE>") (some 4) = .error error) ∧
      couple.pattern (referring "CHILD" "<NUMBER>") none =
        .ok (.group (.sequence (.leaf .number 9) (.literal []))) ∧
      (couple.withDepthLimit 40).pattern (referring "CHILD" "<NUMBER>") none =
        .ok (.group (.sequence (.leaf .number 9) (.literal []))) := by
  have toWife : couple.Links (referring "HUSBAND" "<WIFE>") (referring "WIFE" "<HUSBAND>") :=
    ⟨"WIFE".toList, mentions_of_referring rfl (by decide) (by decide +kernel), by decide +kernel⟩
  have toHusband : couple.Links (referring "WIFE" "<HUSBAND>") (referring "HUSBAND" "<WIFE>") :=
    ⟨"HUSBAND".toList, mentions_of_referring rfl (by decide) (by decide +kernel),
      by decide +kernel⟩
  have circle : couple.Chain 2 (referring "HUSBAND" "<WIFE>") (referring "HUSBAND" "<WIFE>") :=
    .link toWife (.link toHusband .start)
  have made : couple.pattern (referring "CHILD" "<NUMBER>") none =
      .ok (.group (.sequence (.leaf .number 9) (.literal []))) := by
    decide +kernel
  have failing := (exists_pattern_iff couple (referring "HUSBAND" "<WIFE>") (some 4)).2.1
  have kept := (exists_pattern_iff couple (referring "CHILD" "<NUMBER>") none).2.2.2
  exact ⟨circle, failing 0 1 _ .start circle, made, kept 40 _ (by decide) made⟩

end GedcomGrammar.Schema
