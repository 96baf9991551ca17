/-
This file proves that each leaf of a pattern stands at the end of a chain of references.
-/

import GedcomGrammar.LeafChain
import GedcomGrammar.Proofs.Expansion.Grounded
import GedcomGrammar.Proofs.Pattern.Repetitions

namespace GedcomGrammar

namespace LeafChain

/-- The leaf of a chain, under a cap at its start. -/
def leafUnder (cap : Option Nat) (chain : LeafChain) : Leaf × Nat :=
  (chain.leaf, chain.bound cap)

theorem bound_some (chain : LeafChain) (cap : Nat) :
    chain.bound (some cap) = (chain.passed.map Primitive.sizeMax).foldl min cap := by
  rw [bound, Option.toList_some, List.singleton_append, List.min?_cons', Option.getD_some]

/-- What a primitive leaves of a cap is the cap for the rest of the chain. -/
theorem bound_behind (chain : LeafChain) (primitive : Primitive) (cap : Option Nat) :
    (chain.behind primitive).bound cap = chain.bound (some (primitive.boundUnder cap)) := by
  rw [bound_some]
  cases cap with
  | none =>
      rw [bound, behind, Option.toList_none, List.nil_append, List.map_cons, List.min?_cons']
      rfl
  | some cap => rw [bound_some, behind, List.map_cons, List.foldl_cons]; rfl

/-- A chain has room when the cap leaves some and every primitive on the way does. -/
theorem bound_pos {chain : LeafChain} {cap : Nat} (positive : 0 < cap)
    (roomy : ∀ primitive ∈ chain.passed, 0 < primitive.sizeMax) : 0 < chain.bound (some cap) := by
  obtain ⟨passed, leaf⟩ := chain
  induction passed generalizing cap with
  | nil => exact positive
  | cons primitive passed inductionHypothesis =>
      obtain ⟨here, beyond⟩ := List.forall_mem_cons.mp roomy
      have later := inductionHypothesis (lt_min positive here) beyond
      rw [bound_some] at later ⊢
      exact later

theorem leafUnder_behind (chain : LeafChain) (primitive : Primitive) (cap : Option Nat) :
    (chain.behind primitive).leafUnder cap = chain.leafUnder (some (primitive.boundUnder cap)) :=
  Prod.ext rfl (chain.bound_behind primitive cap)

end LeafChain

/-- A definition refers to the names in its components of that kind. -/
theorem Component.mem_namesIn_iff {definition name : Text} :
    name ∈ Component.namesIn definition ↔ ∃ components,
      Component.ofDefinition definition = .ok components ∧ ⟨.primitive, name⟩ ∈ components := by
  unfold Component.namesIn
  cases Component.ofDefinition definition with
  | error error => simp
  | ok components =>
      simp only [List.mem_map, List.mem_filter, decide_eq_true_eq, Except.ok.injEq,
        exists_eq_left']
      constructor
      · rintro ⟨⟨kind, value⟩, ⟨member, rfl⟩, rfl⟩
        exact member
      · intro member
        exact ⟨_, ⟨member, rfl⟩, rfl⟩

theorem Primitive.names_iff_mem_references {primitive : Primitive} {name : Text} :
    primitive.Names name ↔ name ∈ primitive.references := by
  simp only [Names, references, List.mem_flatMap, Component.mem_namesIn_iff]

namespace Schema

variable {schema : Schema} {follow : Primitive → List LeafChain}
  {expand : Primitive → Except PatternError Pattern} {bound : Nat}

/-- The leaves of what `expand` makes of a primitive are those of the chains from it. -/
def FollowsLeaves (expand : Primitive → Except PatternError Pattern)
    (follow : Primitive → List LeafChain) (cap : Option Nat) : Prop :=
  ∀ primitive pattern, expand primitive = .ok pattern →
    pattern.leaves = (follow primitive).map (LeafChain.leafUnder cap)

section Definitions

variable (follows : FollowsLeaves expand follow (some bound))

include follows

theorem leaves_referencePattern {name : Text} {pattern : Pattern}
    (made : schema.referencePattern expand bound name = .ok pattern) :
    pattern.leaves =
      (schema.referenceChains follow name).map (LeafChain.leafUnder (some bound)) := by
  unfold referencePattern at made
  unfold referenceChains
  cases found : schema.primitive? name with
  | some target =>
      rw [found] at made
      exact follows target pattern made
  | none =>
      rw [found] at made
      cases named : Leaf.ofLabel? name with
      | some leaf =>
          simp only [named, Except.ok.injEq] at made
          rw [← made]
          rfl
      | none => simp [named] at made

theorem leaves_componentPattern {component : Component} {pattern : Pattern}
    (made : schema.componentPattern expand bound component = .ok pattern) :
    pattern.leaves =
      (if component.kind = .primitive then schema.referenceChains follow component.value
        else []).map (LeafChain.leafUnder (some bound)) := by
  unfold componentPattern at made
  split at made
  · rename_i refers
    rw [if_pos refers]
    exact leaves_referencePattern follows made
  · rename_i other
    rw [if_neg fun refers => other refers, ← Except.ok.inj made]
    rfl

/-- The components of a definition contribute their leaves one after another. -/
theorem leaves_definitionPattern {definition : Text} {pattern : Pattern}
    (made : schema.definitionPattern expand bound definition = .ok pattern) :
    pattern.leaves =
      ((Component.namesIn definition).flatMap (schema.referenceChains follow)).map
        (LeafChain.leafUnder (some bound)) := by
  unfold definitionPattern at made
  unfold Component.namesIn
  cases read : Component.ofDefinition definition with
  | error error => simp [read] at made
  | ok components =>
      simp only [read] at made
      obtain ⟨patterns, madeAll, rfl⟩ := map_eq_ok_iff.mp made
      clear made read
      rw [Pattern.leaves_concat]
      induction components generalizing patterns with
      | nil =>
          rw [mapM_nil_eq_ok_iff.mp madeAll]
          rfl
      | cons component rest inductionHypothesis =>
          obtain ⟨first, later, madeFirst, madeLater, rfl⟩ := mapM_cons_eq_ok_iff.mp madeAll
          rw [List.flatMap_cons, leaves_componentPattern follows madeFirst,
            inductionHypothesis later madeLater]
          by_cases refers : component.kind = .primitive <;> simp [refers]

/-- The alternatives of a primitive contribute their leaves one after another. -/
theorem leaves_alternatives {definitions : List Text} {patterns : List Pattern}
    (made : definitions.mapM (schema.definitionPattern expand bound) = .ok patterns) :
    patterns.flatMap Pattern.leaves =
      ((definitions.flatMap Component.namesIn).flatMap (schema.referenceChains follow)).map
        (LeafChain.leafUnder (some bound)) := by
  induction definitions generalizing patterns with
  | nil =>
      rw [mapM_nil_eq_ok_iff.mp made]
      rfl
  | cons definition rest inductionHypothesis =>
      obtain ⟨first, later, madeFirst, madeLater, rfl⟩ := mapM_cons_eq_ok_iff.mp made
      rw [List.flatMap_cons, leaves_definitionPattern follows madeFirst,
        inductionHypothesis madeLater, List.flatMap_cons, List.flatMap_append, List.map_append]

end Definitions

/-- Each level of references puts its primitive in front of the chains below it. -/
theorem leaves_primitivePattern {levels : Nat} {cap : Option Nat} {primitive : Primitive}
    {pattern : Pattern} (made : schema.primitivePattern levels cap primitive = .ok pattern) :
    pattern.leaves = (schema.leafChains levels primitive).map (LeafChain.leafUnder cap) := by
  induction levels generalizing cap primitive pattern with
  | zero => exact absurd made (by simp [primitivePattern])
  | succ levels inductionHypothesis =>
      rw [primitivePattern] at made
      rw [leafChains]
      cases named : Leaf.ofLabel? primitive.label with
      | some leaf =>
          simp only [named, Except.ok.injEq] at made
          rw [← made]
          have single := LeafChain.leafUnder_behind ⟨[], leaf⟩ primitive cap
          exact congrArg (fun bounded => [bounded]) single.symm
      | none =>
          simp only [named] at made
          obtain ⟨patterns, madeAll, rfl⟩ := map_eq_ok_iff.mp made
          have follows : FollowsLeaves
              (schema.primitivePattern levels (some (primitive.boundUnder cap)))
              (schema.leafChains levels) (some (primitive.boundUnder cap)) :=
            fun _ _ => inductionHypothesis
          rw [Pattern.leaves, Pattern.leaves_anyOf, leaves_alternatives follows madeAll,
            List.map_map]
          refine List.map_congr_left fun chain _ => ?_
          exact (chain.leafUnder_behind primitive cap).symm

theorem mem_referenceChains_iff {name : Text} {chain : LeafChain} :
    chain ∈ schema.referenceChains follow name ↔
      (∃ target, schema.primitive? name = some target ∧ chain ∈ follow target) ∨
        schema.primitive? name = none ∧
          ∃ leaf, Leaf.ofLabel? name = some leaf ∧ chain = ⟨[], leaf⟩ := by
  unfold referenceChains
  cases schema.primitive? name with
  | some target => simp
  | none => simp [eq_comm]

/-- A primitive descends by its label, or by a reference in its alternatives. -/
theorem descends_iff_of_composite {primitive : Primitive} {chain : LeafChain}
    (composite : Leaf.ofLabel? primitive.label = none) :
    schema.Descends primitive chain ↔ ∃ name ∈ primitive.references, ∃ rest,
      rest.behind primitive = chain ∧
        ((∃ target, schema.primitive? name = some target ∧ schema.Descends target rest) ∨
          schema.primitive? name = none ∧
            ∃ leaf, Leaf.ofLabel? name = some leaf ∧ rest = ⟨[], leaf⟩) := by
  constructor
  · intro descends
    cases descends with
    | labelled named => exact absurd (composite.symm.trans named) (by simp)
    | undeclared mentions missing named =>
        exact ⟨_, Primitive.names_iff_mem_references.mp mentions.2, ⟨[], _⟩, rfl,
          .inr ⟨missing, _, named, rfl⟩⟩
    | declared links later =>
        obtain ⟨name, mentions, found⟩ := links
        exact ⟨name, Primitive.names_iff_mem_references.mp mentions.2, _, rfl,
          .inl ⟨_, found, later⟩⟩
  · rintro ⟨name, member, rest, rfl, further⟩
    have mentions : primitive.Mentions name :=
      ⟨composite, Primitive.names_iff_mem_references.mpr member⟩
    rcases further with ⟨target, found, later⟩ | ⟨missing, leaf, named, rfl⟩
    · exact .declared ⟨name, mentions, found⟩ later
    · exact .undeclared mentions missing named

/-- Where a pattern can be made, its levels reach to the end of every chain to a leaf. -/
theorem mem_leafChains_iff {levels : Nat} {cap : Option Nat} {primitive : Primitive}
    {chain : LeafChain}
    (made : ∃ pattern, schema.primitivePattern levels cap primitive = .ok pattern) :
    chain ∈ schema.leafChains levels primitive ↔ schema.Descends primitive chain := by
  induction levels generalizing cap primitive chain with
  | zero => exact absurd made (by simp [primitivePattern])
  | succ levels inductionHypothesis =>
      rw [leafChains]
      cases named : Leaf.ofLabel? primitive.label with
      | some leaf =>
          rw [List.mem_singleton]
          constructor
          · rintro rfl
            exact .labelled named
          · intro descends
            cases descends with
            | labelled namedAlso => rw [Option.some.inj (named.symm.trans namedAlso)]
            | undeclared mentions => exact absurd (named.symm.trans mentions.1) (by simp)
            | declared links =>
                obtain ⟨_, mentions, _⟩ := links
                exact absurd (named.symm.trans mentions.1) (by simp)
      | none =>
          -- One level less is enough for each target, as its pattern is part of this one.
          have below := (exists_primitivePattern_succ_iff.mp made).2
          have later {name : Text} {target : Primitive} {rest : LeafChain}
              (member : name ∈ primitive.references)
              (found : schema.primitive? name = some target) :
              rest ∈ schema.leafChains levels target ↔ schema.Descends target rest :=
            inductionHypothesis
              (below target ⟨name, ⟨named, Primitive.names_iff_mem_references.mpr member⟩, found⟩)
          rw [descends_iff_of_composite named]
          simp only [List.mem_map, List.mem_flatMap, mem_referenceChains_iff]
          constructor
          · rintro ⟨rest, ⟨name, member, further⟩, rfl⟩
            refine ⟨name, member, rest, rfl, further.imp_left ?_⟩
            rintro ⟨target, found, inside⟩
            exact ⟨target, found, (later member found).mp inside⟩
          · rintro ⟨name, member, rest, rfl, further⟩
            refine ⟨rest, ⟨name, member, further.imp_left ?_⟩, rfl⟩
            rintro ⟨target, found, descends⟩
            exact ⟨target, found, (later member found).mpr descends⟩

end Schema

end GedcomGrammar
