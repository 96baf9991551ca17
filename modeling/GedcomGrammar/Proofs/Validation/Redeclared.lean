/-
This file proves what the alternatives of a primitive still accept when it is declared again.
-/

import GedcomGrammar.Proofs.Validation.Depth
import GedcomGrammar.Proofs.Validation.Reach

namespace GedcomGrammar

namespace Primitive

/-- The same primitive with one alternative. -/
def only (primitive : Primitive) (definition : Text) : Primitive :=
  { primitive with alternatives := ⟨[definition], List.cons_ne_nil _ _⟩ }

/-- The same primitive with more alternatives after its own. -/
def append (primitive : Primitive) (more : List Text) : Primitive :=
  { primitive with
    alternatives := ⟨primitive.alternatives.definitions ++ more,
      List.append_ne_nil_of_left_ne_nil primitive.alternatives.nonempty _⟩ }

end Primitive

namespace Schema

variable {schema : Schema} {compiler : Regex.Compiler} {primitive target : Primitive}
  {definition name value : Text} {bound count : Nat}

section Circles

/-- What a composite primitive reaches is mentioned at the end of a chain. -/
theorem Reaches.exists_chain (reached : schema.Reaches primitive name)
    (composite : Leaf.ofLabel? primitive.label = none) :
    ∃ count last, schema.Chain count primitive last ∧ last.Mentions name := by
  induction reached with
  | named names => exact ⟨0, primitive, .start, composite, names⟩
  | beyond _ found mentions inductionHypothesis =>
      obtain ⟨count, last, chain, mentioned⟩ := inductionHypothesis
      exact ⟨count + 1, _, chain.append (.link ⟨_, mentioned, found⟩ .start), mentions⟩

/-- A primitive reaches what any of its alternatives reaches. -/
theorem Reaches.of_only (reached : schema.Reaches (primitive.only definition) name)
    (listed : definition ∈ primitive.alternatives.definitions) :
    schema.Reaches primitive name := by
  refine reached.within (schema.closed_reaches primitive) fun name named => .named ?_
  obtain ⟨single, member, components, read, inside⟩ := named
  obtain rfl := List.mem_singleton.mp member
  exact ⟨single, listed, components, read, inside⟩

/-- A declared primitive that reaches its own label goes in a circle. -/
theorem exists_circle (composite : Leaf.ofLabel? primitive.label = none)
    (declared : schema.primitive? primitive.label = some primitive)
    (reached : schema.Reaches primitive primitive.label) :
    ∃ count, schema.Chain (count + 1) primitive primitive := by
  obtain ⟨count, last, chain, mentions⟩ := reached.exists_chain composite
  exact ⟨count, chain.append (.link ⟨_, mentions, declared⟩ .start)⟩

/-- An alternative that has a pattern does not lead back to its own primitive. -/
theorem not_reaches_of_alternativePattern (composite : Leaf.ofLabel? primitive.label = none)
    (declared : schema.primitive? primitive.label = some primitive)
    (listed : definition ∈ primitive.alternatives.definitions) {pattern : Pattern}
    (made : schema.alternativePattern primitive.sizeMax definition = .ok pattern) :
    ¬schema.Reaches (primitive.only definition) primitive.label := by
  intro reached
  obtain ⟨around, circle⟩ := exists_circle composite declared (reached.of_only listed)
  obtain ⟨before, last, lead, mentions⟩ := reached.exists_chain composite
  have alone : Leaf.ofLabel? (primitive.only definition).label = none := composite
  have tried : ∀ other ∈ (primitive.only definition).alternatives.definitions,
      ∃ pattern, schema.alternativePattern primitive.sizeMax other = .ok pattern := by
    intro other member
    obtain rfl := List.mem_singleton.mp member
    exact ⟨pattern, made⟩
  have single : ∃ pattern,
      schema.primitivePattern (schema.levels + 1) none (primitive.only definition) =
        .ok pattern :=
    exists_primitivePattern_succ_iff.mpr ((forall_exists_definitionPattern_iff alone).mp tried)
  obtain ⟨pattern, spelled⟩ := single
  have home := lead.append (.link ⟨_, mentions, declared⟩ .start)
  obtain ⟨error, failed⟩ := exists_error_of_circle home circle (schema.levels + 1) none
  exact absurd (spelled.symm.trans failed) (by simp)

theorem exists_alternativePattern_of_accepts {accepted : Bool}
    (decided : schema.alternativeAccepts compiler bound definition value = .ok accepted) :
    ∃ pattern, schema.alternativePattern bound definition = .ok pattern := by
  unfold alternativeAccepts at decided
  split at decided
  · simp at decided
  · rename_i spelling spelled
    exact exists_alternativePattern_of_spelling spelled
  · obtain ⟨pattern, matched, -⟩ := map_eq_ok_iff.mp decided
    exact ⟨pattern, (matcher_eq_ok_iff.mp matched).1⟩

end Circles

section Insertion

variable (declared : schema.primitive? target.label = some primitive)

include declared

theorem referencePattern_insert {expand other : Primitive → Except PatternError Pattern}
    (alike : ∀ reference, expand reference = other reference)
    (same : other primitive = other target) (name : Text) :
    (schema.insert (.primitive target)).referencePattern expand bound name =
      schema.referencePattern other bound name := by
  unfold referencePattern
  by_cases own : target.label = name
  · rw [← own, primitive?_insert_self, declared]
    exact (alike target).trans same.symm
  · have different : (Element.primitive target).key ≠ (.primitive, name) :=
      fun key => own (congrArg Prod.snd key)
    rw [primitive?_insert_of_ne different, funext alike]

/-- A declaration that keeps the pattern of what it replaces keeps all patterns. -/
theorem primitivePattern_insert
    (same : ∀ levels cap, schema.primitivePattern levels cap primitive =
      schema.primitivePattern levels cap target) (levels : Nat) (cap : Option Nat)
    (other : Primitive) :
    (schema.insert (.primitive target)).primitivePattern levels cap other =
      schema.primitivePattern levels cap other := by
  induction levels generalizing cap other with
  | zero => rfl
  | succ levels inductionHypothesis =>
      rw [primitivePattern, primitivePattern]
      split
      · rfl
      · rw [mapM_congr fun definition _ => definitionPattern_congr_of_references fun _ _ name _ =>
          referencePattern_insert declared (inductionHypothesis _) (same levels _) name]

theorem alternativeAccepts_insert
    (same : ∀ levels cap, schema.primitivePattern levels cap primitive =
      schema.primitivePattern levels cap target) :
    (schema.insert (.primitive target)).alternativeAccepts compiler bound definition value =
      schema.alternativeAccepts compiler bound definition value := by
  have pattern : (schema.insert (.primitive target)).alternativePattern bound definition =
      schema.alternativePattern bound definition :=
    definitionPattern_congr_of_references fun _ _ name _ =>
      referencePattern_insert declared (primitivePattern_insert declared same _ _) (same _ _) name
  unfold alternativeAccepts matcher
  rw [pattern]

end Insertion

/-- An alternative does not depend on a declaration that it does not reach. -/
theorem alternativeAccepts_insert_of_unreached
    (unreached : ¬schema.Reaches (primitive.only definition) target.label) :
    (schema.insert (.primitive target)).alternativeAccepts compiler bound definition value =
      schema.alternativeAccepts compiler bound definition value := by
  have agree : AgreeOn schema (schema.insert (.primitive target))
      (schema.Reaches (primitive.only definition)) :=
    agreeOn_insert fun other declares reached => by
      obtain rfl := Element.primitive.inj declares
      exact absurd reached unreached
  have listed : definition ∈ (primitive.only definition).alternatives.definitions :=
    List.mem_singleton_self definition
  have limit : schema.depthLimit = (schema.insert (.primitive target)).depthLimit := rfl
  exact (alternativeAccepts_congr limit agree (schema.closed_reaches _)
    (confined_of_listed listed)).symm

theorem primitivePattern_of_leaf {leaf : Leaf} (named : Leaf.ofLabel? primitive.label = some leaf)
    (label : target.label = primitive.label) (sizeMax : target.sizeMax = primitive.sizeMax)
    (levels : Nat) (cap : Option Nat) :
    schema.primitivePattern levels cap primitive = schema.primitivePattern levels cap target := by
  cases levels with
  | zero => rfl
  | succ levels =>
      have bound : target.boundUnder cap = primitive.boundUnder cap := by
        unfold Primitive.boundUnder
        rw [sizeMax]
      rw [primitivePattern, primitivePattern, label, named, bound]

/-- A circle in the alternatives of a primitive is met before any that are added. -/
theorem primitivePattern_append_of_circle (more : List Text)
    (circle : schema.Chain (count + 1) primitive primitive) (levels : Nat) (cap : Option Nat) :
    schema.primitivePattern levels cap primitive =
      schema.primitivePattern levels cap (primitive.append more) := by
  obtain ⟨error, failed⟩ := exists_error_of_circle .start circle levels cap
  rw [failed]
  cases levels with
  | zero => exact failed.symm
  | succ levels =>
      have composite : Leaf.ofLabel? primitive.label = none := by
        cases circle with
        | link first later => exact first.choose_spec.1.1
      have same : (primitive.append more).label = primitive.label := rfl
      rw [primitivePattern, composite] at failed
      rw [primitivePattern, same, composite]
      exact (map_eq_error_iff.mpr (mapM_append_of_error (map_eq_error_iff.mp failed) more)).symm

section Redeclared

variable (declared : schema.primitive? primitive.label = some primitive)
  (listed : definition ∈ primitive.alternatives.definitions)

include declared listed

theorem alternativeAccepts_insert_append (more : List Text) :
    (schema.insert (.primitive (primitive.append more))).alternativeAccepts compiler bound
        definition value =
      schema.alternativeAccepts compiler bound definition value := by
  cases named : Leaf.ofLabel? primitive.label with
  | some leaf =>
      exact alternativeAccepts_insert declared (primitivePattern_of_leaf named rfl rfl)
  | none =>
      by_cases reached : schema.Reaches (primitive.only definition) primitive.label
      · obtain ⟨count, circle⟩ := exists_circle named declared (reached.of_only listed)
        exact alternativeAccepts_insert declared (primitivePattern_append_of_circle more circle)
      · exact alternativeAccepts_insert_of_unreached reached

theorem alternativeAccepts_insert_only {accepted : Bool}
    (decided :
      schema.alternativeAccepts compiler primitive.sizeMax definition value = .ok accepted) :
    (schema.insert (.primitive (primitive.only definition))).alternativeAccepts compiler
        primitive.sizeMax definition value = .ok accepted := by
  have kept : (schema.insert (.primitive (primitive.only definition))).alternativeAccepts compiler
        primitive.sizeMax definition value =
      schema.alternativeAccepts compiler primitive.sizeMax definition value := by
    cases named : Leaf.ofLabel? primitive.label with
    | some leaf => exact alternativeAccepts_insert declared (primitivePattern_of_leaf named rfl rfl)
    | none =>
        obtain ⟨pattern, made⟩ := exists_alternativePattern_of_accepts decided
        have unreached := not_reaches_of_alternativePattern named declared listed made
        exact alternativeAccepts_insert_of_unreached unreached
  exact kept.trans decided

end Redeclared

end Schema

end GedcomGrammar
