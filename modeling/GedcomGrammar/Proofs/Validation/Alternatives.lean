/-
This file proves which values an alternative accepts, and when any alternative does.
-/

import GedcomGrammar.Proofs.Component.Kinds
import GedcomGrammar.Proofs.Pattern.Matching
import GedcomGrammar.Proofs.Pattern.Meaning
import GedcomGrammar.Validation

namespace GedcomGrammar

namespace Alternatives

theorem spelling?_eq_error_iff {definition : Text} {error : PatternError} :
    spelling? definition = .error error ↔
      ∃ fault, Component.ofDefinition definition = .error fault ∧ error = .unmatched fault := by
  unfold spelling?
  cases Component.ofDefinition definition with
  | error fault => simp [eq_comm]
  | ok components =>
      simp only
      split <;> simp

/-- Components without references make up the spelling. -/
theorem spelling?_eq_some_iff {definition spelling : Text} :
    spelling? definition = .ok (some spelling) ↔
      ∃ components, Component.ofDefinition definition = .ok components ∧
        (∀ component ∈ components, component.kind ≠ .primitive) ∧
        spelling = components.flatMap Component.value := by
  unfold spelling?
  cases Component.ofDefinition definition with
  | error error => simp
  | ok components =>
      have refers := @Component.contains_kinds_iff components .primitive
      rw [Component.KindSet.contains] at refers
      simp only [Except.ok.injEq, exists_eq_left']
      split
      · rename_i found
        refine iff_of_false (by simp) fun plain => ?_
        obtain ⟨component, member, kind⟩ := refers.mp found
        exact plain.1 component member kind
      · rename_i missing
        have plain : ∀ component ∈ components, component.kind ≠ .primitive :=
          fun component member kind => missing (refers.mpr ⟨component, member, kind⟩)
        rw [and_iff_right plain, Except.ok.injEq, Option.some.injEq, eq_comm]

end Alternatives

namespace Schema

variable {schema : Schema} {compiler : Regex.Compiler} {bound : Nat}

/-- Components without references spell their own values. -/
theorem spells_iff_of_plain {components : List Component}
    (plain : ∀ component ∈ components, component.kind ≠ .primitive) {value : Text} :
    schema.Spells components bound value ↔ value = components.flatMap Component.value := by
  induction components generalizing value with
  | nil => exact spells_nil_iff
  | cons component rest inductionHypothesis =>
      obtain ⟨other, plainRest⟩ := List.forall_mem_cons.mp plain
      simp only [spells_cons_iff, fills_iff_of_ne other, inductionHypothesis plainRest,
        List.flatMap_cons]
      constructor
      · rintro ⟨left, right, rfl, rfl, rfl⟩
        rfl
      · rintro rfl
        exact ⟨_, _, rfl, rfl, rfl⟩

theorem describes_iff_of_spelling {definition spelling value : Text}
    (spelled : Alternatives.spelling? definition = .ok (some spelling)) :
    schema.Describes definition bound value ↔ value = spelling := by
  obtain ⟨components, read, plain, rfl⟩ := Alternatives.spelling?_eq_some_iff.mp spelled
  rw [← @spells_iff_of_plain schema bound components plain]
  constructor
  · rintro ⟨componentsAlso, readAlso, spells⟩
    exact Except.ok.inj (read.symm.trans readAlso) ▸ spells
  · intro spells
    exact ⟨components, read, spells⟩

theorem alternativePattern_of_unread {definition : Text} {fault : PatternError}
    (unread : Alternatives.spelling? definition = .error fault) :
    schema.alternativePattern bound definition = .error fault := by
  obtain ⟨cause, read, rfl⟩ := Alternatives.spelling?_eq_error_iff.mp unread
  simp [alternativePattern, definitionPattern, read]

/-- The pattern of an alternative expresses what its definition describes. -/
theorem alternativePattern_expresses {definition : Text} {pattern : Pattern}
    (made : schema.alternativePattern bound definition = .ok pattern) :
    Expresses pattern (schema.Describes definition bound) := by
  have expands : schema.Expands (schema.primitivePattern schema.levels (some bound)) bound :=
    fun _ _ => primitivePattern_expresses
  obtain ⟨components, read, expressed⟩ := expands.definition made
  refine ⟨expressed.grouped, fun value => (expressed.accepts value).trans ?_⟩
  constructor
  · intro spells
    exact ⟨components, read, spells⟩
  · rintro ⟨componentsAlso, readAlso, spells⟩
    exact Except.ok.inj (read.symm.trans readAlso) ▸ spells

theorem describes_iff_of_pattern {definition value : Text} {pattern : Pattern}
    (made : schema.alternativePattern bound definition = .ok pattern) :
    schema.Describes definition bound value ↔ pattern.Accepts value :=
  ((alternativePattern_expresses made).accepts value).symm

theorem matcher_eq_ok_iff {definition : Text} {pattern : Pattern} :
    schema.matcher compiler bound definition = .ok pattern ↔
      schema.alternativePattern bound definition = .ok pattern ∧
        compiler.refusal? pattern.anchoredText = none := by
  unfold matcher
  cases schema.alternativePattern bound definition with
  | error error => simp
  | ok made =>
      simp only [Except.ok.injEq]
      cases refused : compiler.refusal? made.anchoredText with
      | some refusal =>
          refine iff_of_false (by simp) fun both => ?_
          exact absurd (refused.symm.trans (both.1 ▸ both.2)) (by simp)
      | none =>
          simp only [Except.ok.injEq]
          exact ⟨fun same => ⟨same, same ▸ refused⟩, fun both => both.1⟩

/-- Comparing with a spelling and matching a pattern both decide what the definition describes. -/
theorem describes_iff_of_alternativeAccepts {definition value : Text} {accepted : Bool}
    (decided : schema.alternativeAccepts compiler bound definition value = .ok accepted) :
    accepted = true ↔ schema.Describes definition bound value := by
  unfold alternativeAccepts at decided
  split at decided
  · simp at decided
  · rename_i spelling spelled
    rw [describes_iff_of_spelling spelled, ← Except.ok.inj decided, beq_iff_eq, eq_comm]
  · obtain ⟨pattern, matched, rfl⟩ := map_eq_ok_iff.mp decided
    have expressed := alternativePattern_expresses (matcher_eq_ok_iff.mp matched).1
    rw [Pattern.accepts_iff, expressed.accepts]

/-- An alternative can be tried when it has a spelling or a matcher. -/
def isUsable (schema : Schema) (compiler : Regex.Compiler) (bound : Nat) (definition : Text) :
    Bool :=
  match Alternatives.spelling? definition with
  | .error _ => false
  | .ok (some _) => true
  | .ok none => (schema.matcher compiler bound definition).toBool

/-- Whether an alternative can be tried does not depend on the value. -/
theorem exists_alternativeAccepts_iff {definition value : Text} :
    (∃ accepted, schema.alternativeAccepts compiler bound definition value = .ok accepted) ↔
      schema.isUsable compiler bound definition = true := by
  unfold alternativeAccepts isUsable
  rcases Alternatives.spelling? definition with error | (_ | spelling)
  · simp
  · cases schema.matcher compiler bound definition <;> simp [Except.map, Except.toBool]
  · simp

/-- A fault is that of an alternative, with none before it that accepts the value. -/
theorem firstAccepting_cons_eq_error_iff {definition value : Text} {rest : List Text}
    {error : PatternError} :
    schema.firstAccepting compiler bound value (definition :: rest) = .error error ↔
      schema.alternativeAccepts compiler bound definition value = .error error ∨
        schema.alternativeAccepts compiler bound definition value = .ok false ∧
          schema.firstAccepting compiler bound value rest = .error error := by
  rw [firstAccepting]
  rcases schema.alternativeAccepts compiler bound definition value with fault | (_ | _) <;> simp

/-- A fault comes from one of the alternatives. -/
theorem exists_of_firstAccepting_eq_error {value : Text} {definitions : List Text}
    {error : PatternError}
    (failed : schema.firstAccepting compiler bound value definitions = .error error) :
    ∃ definition ∈ definitions,
      schema.alternativeAccepts compiler bound definition value = .error error := by
  induction definitions with
  | nil => simp [firstAccepting] at failed
  | cons definition rest inductionHypothesis =>
      rcases firstAccepting_cons_eq_error_iff.mp failed with here | ⟨-, later⟩
      · exact ⟨definition, List.mem_cons_self, here⟩
      · obtain ⟨other, member, failedOther⟩ := inductionHypothesis later
        exact ⟨other, List.mem_cons_of_mem definition member, failedOther⟩

/-- Some alternative accepts a value when one before the first fault describes it. -/
theorem exists_firstAccepting_iff {value : Text} {definitions : List Text} :
    (∃ accepted, schema.firstAccepting compiler bound value definitions = .ok (some accepted)) ↔
      ∃ definition ∈ definitions.takeWhile (schema.isUsable compiler bound),
        schema.Describes definition bound value := by
  induction definitions with
  | nil => simp [firstAccepting]
  | cons definition rest inductionHypothesis =>
      have usable := @exists_alternativeAccepts_iff schema compiler bound definition value
      rw [firstAccepting]
      cases decided : schema.alternativeAccepts compiler bound definition value with
      | error error =>
          have faulty : ¬schema.isUsable compiler bound definition = true := by
            simp [← usable, decided]
          rw [List.takeWhile_cons_of_neg faulty]
          simp
      | ok accepted =>
          rw [List.takeWhile_cons_of_pos (usable.mp ⟨accepted, decided⟩), List.exists_mem_cons_iff,
            ← describes_iff_of_alternativeAccepts decided, ← inductionHypothesis]
          cases accepted <;> simp

end Schema

namespace Primitive

/-- A value of admissible length. -/
def Admits (primitive : Primitive) (value : Text) : Prop :=
  primitive.sizeMin ≤ value.length ∧ value.length ≤ primitive.sizeMax

theorem settled?_of_admits {primitive : Primitive} {value : Text}
    (admits : primitive.Admits value) :
    primitive.settled? value =
      if primitive.label = Leaf.null.label then
        some (if value = [] then .ok none else .error (.value primitive.label value))
      else none := by
  unfold settled?
  rw [if_neg (not_lt.mpr admits.1), if_neg (not_lt.mpr admits.2)]

theorem exists_verdict_iff {primitive : Primitive} {value : Text}
    {answer : Except PatternError (Option Text)} :
    (∃ accepted, primitive.verdict value answer = .ok accepted) ↔
      ∃ definition, answer = .ok (some definition) := by
  rcases answer with error | (_ | definition) <;> simp [verdict]

theorem verdict_eq_pattern_iff {primitive : Primitive} {value : Text}
    {answer : Except PatternError (Option Text)} {error : PatternError} :
    primitive.verdict value answer = .error (.pattern error) ↔ answer = .error error := by
  rcases answer with fault | (_ | definition) <;> simp [verdict]

end Primitive

namespace Schema

variable {schema : Schema} {compiler : Regex.Compiler} {primitive : Primitive} {value : Text}

theorem ne_null_of_composite (composite : Leaf.ofLabel? primitive.label = none) :
    primitive.label ≠ Leaf.null.label := by
  intro null
  rw [null, Leaf.ofLabel?_label] at composite
  exact absurd composite (by simp)

theorem admits_of_validate {accepted : Option Text}
    (valid : schema.validate compiler primitive value = .ok accepted) : primitive.Admits value := by
  constructor <;> by_contra outside <;> rw [not_le] at outside
  · simp [validate, Primitive.settled?, outside] at valid
  · by_cases short : value.length < primitive.sizeMin <;>
      simp [validate, Primitive.settled?, short, outside] at valid

/-- A value is valid when its length is, and an alternative that can be tried describes it. -/
theorem exists_validate_iff (other : primitive.label ≠ Leaf.null.label) :
    (∃ accepted, schema.validate compiler primitive value = .ok accepted) ↔
      primitive.Admits value ∧
        ∃ definition ∈ primitive.alternatives.definitions.takeWhile
            (schema.isUsable compiler primitive.sizeMax),
          schema.Describes definition primitive.sizeMax value := by
  rw [← exists_firstAccepting_iff]
  have decided (admits : primitive.Admits value) :
      (∃ accepted, schema.validate compiler primitive value = .ok accepted) ↔
        ∃ accepted, schema.firstAccepting compiler primitive.sizeMax value
          primitive.alternatives.definitions = .ok (some accepted) := by
    rw [validate, Primitive.settled?_of_admits admits, if_neg other]
    exact Primitive.exists_verdict_iff
  constructor
  · rintro ⟨accepted, valid⟩
    have admits := admits_of_validate valid
    exact ⟨admits, (decided admits).mp ⟨accepted, valid⟩⟩
  · rintro ⟨admits, first⟩
    exact (decided admits).mpr first

/-- Only the empty value is valid for the label of the empty value. -/
theorem exists_validate_iff_of_null (null : primitive.label = Leaf.null.label) :
    (∃ accepted, schema.validate compiler primitive value = .ok accepted) ↔
      primitive.Admits value ∧ value = [] := by
  have decided (admits : primitive.Admits value) :
      (∃ accepted, schema.validate compiler primitive value = .ok accepted) ↔ value = [] := by
    rw [validate, Primitive.settled?_of_admits admits, if_pos null]
    by_cases empty : value = [] <;> simp [empty]
  constructor
  · rintro ⟨accepted, valid⟩
    have admits := admits_of_validate valid
    exact ⟨admits, (decided admits).mp ⟨accepted, valid⟩⟩
  · rintro ⟨admits, empty⟩
    exact (decided admits).mpr empty

end Schema

end GedcomGrammar
