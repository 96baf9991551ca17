/-
This file proves that the pattern of a primitive matches exactly the values of the primitive.
-/

import GedcomGrammar.Meaning
import GedcomGrammar.Proofs.Pattern.Spans
import GedcomGrammar.Proofs.Results

namespace GedcomGrammar

namespace Pattern

theorem accepts_concat_cons {first : Pattern} {rest : List Pattern} {value : Text} :
    (concat (first :: rest)).Accepts value ↔
      ∃ left right, value = left ++ right ∧ first.Accepts left ∧ (concat rest).Accepts right :=
  Iff.rfl

theorem accepts_anyOf {patterns : List Pattern} (nonempty : patterns ≠ []) {value : Text} :
    (anyOf patterns).Accepts value ↔ ∃ pattern ∈ patterns, pattern.Accepts value := by
  induction patterns with
  | nil => exact absurd rfl nonempty
  | cons first rest inductionHypothesis =>
      cases rest with
      | nil => simp [anyOf]
      | cons second rest =>
          rw [List.exists_mem_cons_iff, ← inductionHypothesis (List.cons_ne_nil _ _)]
          rfl

/-- Without choices on top a pattern is fit for a group as well. -/
theorem Grouped.inGroup {pattern : Pattern} (grouped : pattern.Grouped false) :
    pattern.Grouped true := by
  cases pattern with
  | choice first second => exact absurd grouped.1 (by decide)
  | literal | leaf | sequence | group => exact grouped

theorem grouped_anyOf {patterns : List Pattern}
    (grouped : ∀ pattern ∈ patterns, pattern.Grouped false) : (anyOf patterns).Grouped true := by
  induction patterns with
  | nil => trivial
  | cons first rest inductionHypothesis =>
      have groupedFirst := grouped first List.mem_cons_self
      cases rest with
      | nil => exact groupedFirst.inGroup
      | cons second rest =>
          exact ⟨rfl, groupedFirst, inductionHypothesis fun pattern member =>
            grouped pattern (List.mem_cons_of_mem first member)⟩

end Pattern

namespace Schema

variable {schema : Schema}

/-- A pattern is well formed and accepts the values of a language. -/
structure Expresses (pattern : Pattern) (language : Text → Prop) : Prop where
  grouped : pattern.Grouped false
  accepts : ∀ value, pattern.Accepts value ↔ language value

/-- The written form of a pattern matches the language that the pattern expresses. -/
theorem Expresses.exists_regex {pattern : Pattern} {language : Text → Prop}
    (expresses : Expresses pattern language) :
    ∃ regex, Regex.ofText? pattern.anchoredText = some regex ∧
      ∀ value, regex.Matches value ↔ language value := by
  refine ⟨_, pattern.ofText?_anchoredText, fun value => ?_⟩
  rw [Pattern.matches_anchored_iff expresses.grouped.inGroup]
  exact expresses.accepts value

/-- The pattern of every primitive that `expand` succeeds on expresses the primitive. -/
def Expands (schema : Schema) (expand : Primitive → Except PatternError Pattern) (bound : Nat) :
    Prop :=
  ∀ primitive pattern, expand primitive = .ok pattern →
    Expresses pattern (schema.Denotes primitive (min bound primitive.sizeMax))

theorem fills_iff_of_ne {component : Component} {bound : Nat} {value : Text}
    (other : component.kind ≠ .primitive) :
    schema.Fills component bound value ↔ value = component.value := by
  constructor
  · intro filled
    cases filled with
    | own => rfl
    | declared refers => exact absurd refers other
    | undeclared refers => exact absurd refers other
  · rintro rfl
    exact .own other

theorem fills_iff_of_declared {component : Component} {primitive : Primitive} {bound : Nat}
    {value : Text} (refers : component.kind = .primitive)
    (found : schema.primitive? component.value = some primitive) :
    schema.Fills component bound value ↔
      schema.Denotes primitive (min bound primitive.sizeMax) value := by
  refine ⟨fun filled => ?_, .declared refers found⟩
  cases filled with
  | own other => exact absurd refers other
  | declared _ foundAlso denoted =>
      rw [Option.some.inj (found.symm.trans foundAlso)]
      exact denoted
  | undeclared _ missing => exact absurd (found.symm.trans missing) (by simp)

theorem fills_iff_of_undeclared {component : Component} {leaf : Leaf} {bound : Nat} {value : Text}
    (refers : component.kind = .primitive) (missing : schema.primitive? component.value = none)
    (named : Leaf.ofLabel? component.value = some leaf) :
    schema.Fills component bound value ↔ leaf.Accepts bound value := by
  refine ⟨fun filled => ?_, .undeclared refers missing named⟩
  cases filled with
  | own other => exact absurd refers other
  | declared _ found => exact absurd (missing.symm.trans found) (by simp)
  | undeclared _ _ namedAlso accepted =>
      rw [Option.some.inj (named.symm.trans namedAlso)]
      exact accepted

theorem denotes_iff_of_leaf {primitive : Primitive} {leaf : Leaf} {bound : Nat} {value : Text}
    (named : Leaf.ofLabel? primitive.label = some leaf) :
    schema.Denotes primitive bound value ↔ leaf.Accepts bound value := by
  refine ⟨fun denoted => ?_, .leaf named⟩
  cases denoted with
  | leaf namedAlso accepted =>
      rw [Option.some.inj (named.symm.trans namedAlso)]
      exact accepted
  | alternative composite => exact absurd (named.symm.trans composite) (by simp)

theorem denotes_iff_of_composite {primitive : Primitive} {bound : Nat} {value : Text}
    (composite : Leaf.ofLabel? primitive.label = none) :
    schema.Denotes primitive bound value ↔
      ∃ definition ∈ primitive.alternatives.definitions, ∃ components,
        Component.ofDefinition definition = .ok components ∧
          schema.Spells components bound value := by
  constructor
  · intro denoted
    cases denoted with
    | leaf named => exact absurd (composite.symm.trans named) (by simp)
    | alternative _ listed read spelled => exact ⟨_, listed, _, read, spelled⟩
  · intro described
    obtain ⟨definition, listed, components, read, spelled⟩ := described
    exact .alternative composite listed read spelled

theorem spells_nil_iff {bound : Nat} {value : Text} :
    schema.Spells [] bound value ↔ value = [] := by
  constructor
  · rintro ⟨⟩
    rfl
  · rintro rfl
    exact .nil

theorem spells_cons_iff {component : Component} {rest : List Component} {bound : Nat}
    {value : Text} :
    schema.Spells (component :: rest) bound value ↔
      ∃ left right, value = left ++ right ∧ schema.Fills component bound left ∧
        schema.Spells rest bound right := by
  constructor
  · intro spelled
    cases spelled with
    | cons filled later => exact ⟨_, _, rfl, filled, later⟩
  · intro spelled
    obtain ⟨left, right, rfl, filled, later⟩ := spelled
    exact .cons filled later

section Definitions

variable {expand : Primitive → Except PatternError Pattern} {bound : Nat}

/-- The pattern of a component expresses what the component contributes. -/
theorem Expands.component (expands : schema.Expands expand bound) {component : Component}
    {pattern : Pattern} (made : schema.componentPattern expand bound component = .ok pattern) :
    Expresses pattern (schema.Fills component bound) := by
  by_cases refers : component.kind = .primitive
  · rw [componentPattern, refers] at made
    dsimp only [referencePattern] at made
    split at made
    · rename_i primitive found
      have expressed := expands primitive pattern made
      exact ⟨expressed.grouped, fun value =>
        (expressed.accepts value).trans (fills_iff_of_declared refers found).symm⟩
    · rename_i missing
      split at made
      · rename_i leaf named
        rw [← Except.ok.inj made]
        exact ⟨trivial, fun value => (fills_iff_of_undeclared refers missing named).symm⟩
      · simp at made
  · have own : schema.componentPattern expand bound component = .ok (.literal component.value) := by
      unfold componentPattern
      split
      · rename_i same
        exact absurd same refers
      · rfl
    rw [← Except.ok.inj (own.symm.trans made)]
    exact ⟨trivial, fun value => (fills_iff_of_ne refers).symm⟩

/-- The patterns of components express, one after another, what the components spell. -/
theorem Expands.components (expands : schema.Expands expand bound) {components : List Component}
    {patterns : List Pattern}
    (made : components.mapM (schema.componentPattern expand bound) = .ok patterns) :
    Expresses (.concat patterns) (schema.Spells components bound) := by
  induction components generalizing patterns with
  | nil =>
      rw [mapM_nil_eq_ok_iff.mp made]
      exact ⟨trivial, fun value => spells_nil_iff.symm⟩
  | cons component rest inductionHypothesis =>
      obtain ⟨first, later, madeFirst, madeLater, rfl⟩ := mapM_cons_eq_ok_iff.mp made
      have expressedFirst := expands.component madeFirst
      have expressedLater := inductionHypothesis madeLater
      refine ⟨⟨expressedFirst.grouped, expressedLater.grouped⟩, fun value => ?_⟩
      simp only [Pattern.accepts_concat_cons, spells_cons_iff, expressedFirst.accepts,
        expressedLater.accepts]

/-- The pattern of a definition expresses what its components spell. -/
theorem Expands.definition (expands : schema.Expands expand bound) {definition : Text}
    {pattern : Pattern} (made : schema.definitionPattern expand bound definition = .ok pattern) :
    ∃ components, Component.ofDefinition definition = .ok components ∧
      Expresses pattern (schema.Spells components bound) := by
  unfold definitionPattern at made
  split at made
  · simp at made
  · rename_i components read
    obtain ⟨patterns, madeAll, rfl⟩ := map_eq_ok_iff.mp made
    exact ⟨components, read, expands.components madeAll⟩

/-- The patterns of all definitions express, in a group, the values of a composite primitive. -/
theorem Expands.alternatives (expands : schema.Expands expand bound) {primitive : Primitive}
    (composite : Leaf.ofLabel? primitive.label = none) {patterns : List Pattern}
    (made : primitive.alternatives.definitions.mapM (schema.definitionPattern expand bound) =
      .ok patterns) :
    Expresses (.group (.anyOf patterns)) (schema.Denotes primitive bound) := by
  obtain ⟨fromDefinition, toPattern⟩ := exists_of_mapM_eq_ok made
  have nonempty : patterns ≠ [] := by
    obtain ⟨definition, member⟩ :=
      List.exists_mem_of_ne_nil _ primitive.alternatives.nonempty
    obtain ⟨pattern, inside, -⟩ := toPattern definition member
    exact List.ne_nil_of_mem inside
  constructor
  · apply Pattern.grouped_anyOf
    intro pattern member
    obtain ⟨definition, -, madeOne⟩ := fromDefinition pattern member
    obtain ⟨components, -, expressed⟩ := expands.definition madeOne
    exact expressed.grouped
  · intro value
    refine (Pattern.accepts_anyOf nonempty).trans ?_
    rw [denotes_iff_of_composite composite]
    constructor
    · intro accepted
      obtain ⟨pattern, member, accepts⟩ := accepted
      obtain ⟨definition, listed, madeOne⟩ := fromDefinition pattern member
      obtain ⟨components, read, expressed⟩ := expands.definition madeOne
      exact ⟨definition, listed, components, read, (expressed.accepts value).mp accepts⟩
    · intro described
      obtain ⟨definition, listed, components, read, spelled⟩ := described
      obtain ⟨pattern, member, madeOne⟩ := toPattern definition listed
      obtain ⟨componentsAlso, readAlso, expressed⟩ := expands.definition madeOne
      rw [Except.ok.inj (read.symm.trans readAlso)] at spelled
      exact ⟨pattern, member, (expressed.accepts value).mpr spelled⟩

end Definitions

/-- The pattern of a primitive expresses the primitive, however deep its references nest. -/
theorem primitivePattern_expresses {levels : Nat} {cap : Option Nat} {primitive : Primitive}
    {pattern : Pattern} (made : schema.primitivePattern levels cap primitive = .ok pattern) :
    Expresses pattern (schema.Denotes primitive (primitive.boundUnder cap)) := by
  induction levels generalizing cap primitive pattern with
  | zero => exact absurd made (by simp [primitivePattern])
  | succ levels inductionHypothesis =>
      rw [primitivePattern] at made
      split at made
      · rename_i leaf named
        rw [← Except.ok.inj made]
        exact ⟨trivial, fun value => (denotes_iff_of_leaf named).symm⟩
      · rename_i composite
        obtain ⟨patterns, madeAll, rfl⟩ := map_eq_ok_iff.mp made
        have expands : schema.Expands
            (schema.primitivePattern levels (some (primitive.boundUnder cap)))
            (primitive.boundUnder cap) :=
          fun _ _ => inductionHypothesis
        exact expands.alternatives composite madeAll

/--
The written pattern of a primitive, anchored at both ends, is a regular expression.
It matches a text as a whole exactly when the text is a value of the primitive under the cap.
-/
theorem matches_pattern_iff {primitive : Primitive} {cap : Option Nat} {pattern : Pattern}
    (made : schema.pattern primitive cap = .ok pattern) :
    ∃ regex, Regex.ofText? pattern.anchoredText = some regex ∧
      ∀ value, regex.Matches value ↔
        schema.Denotes primitive (primitive.boundUnder cap) value := by
  have expressed := primitivePattern_expresses made
  refine ⟨_, pattern.ofText?_anchoredText, fun value => ?_⟩
  rw [Pattern.matches_anchored_iff expressed.grouped.inGroup]
  exact expressed.accepts value

def year : Primitive where
  label := "YEAR".toList
  sizeMin := 3
  sizeMax := 4
  alternatives := .ofText "<NUMBER>".toList

def date : Primitive where
  label := "DATE".toList
  sizeMin := 3
  sizeMax := 9
  alternatives := .ofText "<YEAR>|<YEAR> {BC}".toList

/-- A date is a year, and a mark may stand after the year. -/
def calendar : Schema where
  elements := [.primitive year, .primitive date]

def datePattern : Pattern :=
  have year : Pattern := .group (.sequence (.leaf .number 3) (.literal []))
  .group (.choice (.sequence year (.literal []))
    (.sequence year (.sequence (.literal [' ']) (.sequence (.literal ['B', 'C']) (.literal [])))))

theorem matches_datePattern_iff :
    calendar.pattern date (some 3) = .ok datePattern ∧
      ∃ regex, Regex.ofText? datePattern.anchoredText = some regex ∧
        ∀ value, regex.Matches value ↔ calendar.Denotes date 3 value := by
  have made : calendar.pattern date (some 3) = .ok datePattern := by decide +kernel
  exact ⟨made, matches_pattern_iff made⟩

end Schema

end GedcomGrammar
