/-
This file proves which values are valid only because a leaf without room still takes one unit.
-/

import GedcomGrammar.Proofs.Expansion.Chains
import GedcomGrammar.Proofs.Pattern.Strict
import GedcomGrammar.Proofs.Validation.Redeclared

namespace GedcomGrammar.Schema

variable {schema : Schema} {compiler : Regex.Compiler} {primitive : Primitive}
  {definition value : Text} {definitions : List Text} {bound : Nat}

/-- The judge of the program is the match against the whole pattern. -/
theorem validateBy_accepts (schema : Schema) (compiler : Regex.Compiler) (primitive : Primitive)
    (value : Text) :
    schema.validateBy compiler Pattern.accepts primitive value =
      schema.validate compiler primitive value := by
  have same (definitions : List Text) :
      schema.firstAcceptingBy compiler Pattern.accepts primitive.sizeMax value definitions =
        schema.firstAccepting compiler primitive.sizeMax value definitions := by
    induction definitions with
    | nil => rfl
    | cons definition rest inductionHypothesis =>
        rw [firstAcceptingBy, firstAccepting, inductionHypothesis]
        rfl
  rw [validateBy, same]
  rfl

section Alternatives

/-- An alternative that can be tried has a pattern, whether or not it is compared as spelled. -/
theorem exists_alternativePattern_of_isUsable
    (usable : schema.isUsable compiler bound definition = true) :
    ∃ pattern, schema.alternativePattern bound definition = .ok pattern := by
  obtain ⟨accepted, decided⟩ := (@exists_alternativeAccepts_iff _ _ _ _ []).mpr usable
  exact exists_alternativePattern_of_accepts decided

/-- The references of an alternative start chains at the bound of the primitive that holds it. -/
theorem leaves_alternativePattern {pattern : Pattern}
    (made : schema.alternativePattern bound definition = .ok pattern) :
    pattern.leaves =
      ((Component.namesIn definition).flatMap
        (schema.referenceChains (schema.leafChains schema.levels))).map
          (LeafChain.leafUnder (some bound)) :=
  leaves_definitionPattern (fun _ _ => leaves_primitivePattern) made

variable {pattern : Pattern} (made : schema.alternativePattern bound definition = .ok pattern)

include made

theorem describesStrictly_iff_of_pattern :
    schema.DescribesStrictly definition bound value ↔ pattern.AcceptsStrictly value := by
  simp only [DescribesStrictly, made, Except.ok.injEq, exists_eq_left']

/-- An alternative whose leaves all have room describes the same strictly. -/
theorem describesStrictly_iff_of_hasRoom
    (roomy : ∀ leaf ∈ pattern.leaves, leaf.1.hasRoom leaf.2 = true) :
    schema.DescribesStrictly definition bound value ↔ schema.Describes definition bound value := by
  rw [describesStrictly_iff_of_pattern made, describes_iff_of_pattern made,
    Pattern.acceptsStrictly_iff_of_hasRoom roomy]

end Alternatives

theorem DescribesStrictly.describes (strictly : schema.DescribesStrictly definition bound value) :
    schema.Describes definition bound value := by
  obtain ⟨pattern, made, accepts⟩ := strictly
  exact (describes_iff_of_pattern made).mpr accepts.accepts

/-- An alternative without references has no leaf at all. -/
theorem describesStrictly_iff_of_spelling {spelling : Text}
    (spelled : Alternatives.spelling? definition = .ok (some spelling)) :
    schema.DescribesStrictly definition bound value ↔ value = spelling := by
  obtain ⟨pattern, made⟩ := @exists_alternativePattern_of_spelling schema bound _ _ spelled
  have silent : Component.namesIn definition = [] := by
    obtain ⟨components, read, plain, -⟩ := Alternatives.spelling?_eq_some_iff.mp spelled
    simp only [Component.namesIn, read, List.map_eq_nil_iff, List.filter_eq_nil_iff,
      decide_eq_true_eq]
    exact plain
  have leafless : pattern.leaves = [] := by
    rw [leaves_alternativePattern made, silent]
    rfl
  rw [describesStrictly_iff_of_hasRoom made (by simp [leafless]), describes_iff_of_spelling spelled]

/-- Strict checks of an alternative fail with the same faults. -/
theorem alternativeAcceptsStrictly_eq_error_iff {error : PatternError} :
    schema.alternativeAcceptsBy compiler Pattern.acceptsStrictly bound definition value =
        .error error ↔
      schema.alternativeAccepts compiler bound definition value = .error error := by
  unfold alternativeAcceptsBy alternativeAccepts
  rcases Alternatives.spelling? definition with error | (_ | spelling)
  · exact Iff.rfl
  · simp only [map_eq_error_iff]
  · exact Iff.rfl

/-- A strict check decides what an alternative describes strictly. -/
theorem describesStrictly_iff_of_accepts {accepted : Bool}
    (decided : schema.alternativeAcceptsBy compiler Pattern.acceptsStrictly bound definition value =
      .ok accepted) :
    accepted = true ↔ schema.DescribesStrictly definition bound value := by
  unfold alternativeAcceptsBy at decided
  split at decided
  · simp at decided
  · rename_i spelling spelled
    rw [describesStrictly_iff_of_spelling spelled, ← Except.ok.inj decided, beq_iff_eq, eq_comm]
  · obtain ⟨pattern, matched, rfl⟩ := map_eq_ok_iff.mp decided
    rw [describesStrictly_iff_of_pattern (matcher_eq_ok_iff.mp matched).1,
      Pattern.acceptsStrictly_iff]

/-- The strict check of an alternative refuses what the check refuses. -/
theorem alternativeAcceptsStrictly_of_refused
    (refused : schema.alternativeAccepts compiler bound definition value = .ok false) :
    schema.alternativeAcceptsBy compiler Pattern.acceptsStrictly bound definition value =
      .ok false := by
  cases decided :
      schema.alternativeAcceptsBy compiler Pattern.acceptsStrictly bound definition value with
  | error error =>
      rw [alternativeAcceptsStrictly_eq_error_iff.mp decided] at refused
      exact absurd refused (by simp)
  | ok accepted =>
      cases accepted with
      | false => rfl
      | true =>
          have strictly := (describesStrictly_iff_of_accepts decided).mp rfl
          have described := (describes_iff_of_alternativeAccepts refused).mpr strictly.describes
          exact absurd described (by decide)

/-- Without an alternative that accepts a value, the strict check goes the same way. -/
theorem firstAcceptingStrictly_of_refused
    (refused : ∀ accepted,
      schema.firstAccepting compiler bound value definitions ≠ .ok (some accepted)) :
    schema.firstAcceptingBy compiler Pattern.acceptsStrictly bound value definitions =
      schema.firstAccepting compiler bound value definitions := by
  induction definitions with
  | nil => rfl
  | cons definition rest inductionHypothesis =>
      rw [firstAccepting] at refused ⊢
      rw [firstAcceptingBy]
      cases decided : schema.alternativeAccepts compiler bound definition value with
      | error error => rw [alternativeAcceptsStrictly_eq_error_iff.mpr decided]
      | ok accepted =>
          cases accepted with
          | true => exact absurd (by rw [decided]) (refused definition)
          | false =>
              rw [alternativeAcceptsStrictly_of_refused decided]
              rw [decided] at refused
              exact inductionHypothesis refused

/-- Strictly, some alternative accepts a value when one before the first fault does. -/
theorem exists_firstAcceptingStrictly_iff :
    (∃ accepted,
        schema.firstAcceptingBy compiler Pattern.acceptsStrictly bound value definitions =
          .ok (some accepted)) ↔
      ∃ definition ∈ definitions.takeWhile (schema.isUsable compiler bound),
        schema.DescribesStrictly definition bound value := by
  induction definitions with
  | nil => simp [firstAcceptingBy]
  | cons definition rest inductionHypothesis =>
      have usable := @exists_alternativeAccepts_iff schema compiler bound definition value
      rw [firstAcceptingBy]
      cases decided :
          schema.alternativeAcceptsBy compiler Pattern.acceptsStrictly bound definition value with
      | error error =>
          have faulty : ¬schema.isUsable compiler bound definition = true := by
            simp [← usable, alternativeAcceptsStrictly_eq_error_iff.mp decided]
          rw [List.takeWhile_cons_of_neg faulty]
          simp
      | ok accepted =>
          have able : schema.isUsable compiler bound definition = true := by
            rw [← usable]
            cases checked : schema.alternativeAccepts compiler bound definition value with
            | error error =>
                rw [alternativeAcceptsStrictly_eq_error_iff.mpr checked] at decided
                exact absurd decided (by simp)
            | ok answer => exact ⟨answer, rfl⟩
          rw [List.takeWhile_cons_of_pos able, List.exists_mem_cons_iff,
            ← describesStrictly_iff_of_accepts decided, ← inductionHypothesis]
          cases accepted <;> simp

section Outcomes

theorem outcome_ok_eq_iff {accepted : Option Text} {verdict : Verdict} :
    Verdict.outcome (.ok accepted) = verdict.outcome ↔ ∃ other, verdict = .ok other := by
  cases verdict <;> simp [Verdict.outcome, Except.map]

/-- A value that is not settled beforehand has an admissible size, and the label is another. -/
theorem ne_null_of_settled?_eq_none (unsettled : primitive.settled? value = none)
    {accepted : Option Text} (valid : schema.validate compiler primitive value = .ok accepted) :
    primitive.label ≠ Leaf.null.label := by
  intro null
  rw [Primitive.settled?_of_admits (admits_of_validate valid), if_pos null] at unsettled
  exact absurd unsettled (by simp)

/-- Among the values that are settled beforehand, only the empty one of its label is valid. -/
theorem null_of_settled?_eq_some {verdict : Verdict}
    (settled : primitive.settled? value = some verdict) {accepted : Option Text}
    (valid : schema.validate compiler primitive value = .ok accepted) :
    primitive.label = Leaf.null.label := by
  by_contra other
  rw [Primitive.settled?_of_admits (admits_of_validate valid), if_neg other] at settled
  exact absurd settled (by simp)

/-- A strict check ends alike unless a value is accepted that no alternative describes strictly. -/
theorem outcome_eq_iff :
    (schema.validate compiler primitive value).outcome =
        (schema.validateStrictly compiler primitive value).outcome ↔
      ∀ accepted, schema.validate compiler primitive value = .ok accepted →
        primitive.label = Leaf.null.label ∨
          ∃ definition ∈ primitive.alternatives.definitions.takeWhile
              (schema.isUsable compiler primitive.sizeMax),
            schema.DescribesStrictly definition primitive.sizeMax value := by
  cases settled : primitive.settled? value with
  | some verdict =>
      have same : schema.validate compiler primitive value =
          schema.validateStrictly compiler primitive value := by
        rw [validate, validateStrictly, validateBy, settled]
      exact iff_of_true (congrArg Verdict.outcome same) fun accepted valid =>
        .inl (null_of_settled?_eq_some settled valid)
  | none =>
      have checked : schema.validate compiler primitive value = primitive.verdict value
          (schema.firstAccepting compiler primitive.sizeMax value
            primitive.alternatives.definitions) := by
        rw [validate, settled]
      have strictly : schema.validateStrictly compiler primitive value = primitive.verdict value
          (schema.firstAcceptingBy compiler Pattern.acceptsStrictly primitive.sizeMax value
            primitive.alternatives.definitions) := by
        rw [validateStrictly, validateBy, settled]
      by_cases valid : ∃ accepted, schema.validate compiler primitive value = .ok accepted
      · obtain ⟨accepted, valid⟩ := valid
        have other := ne_null_of_settled?_eq_none settled valid
        simp only [valid, outcome_ok_eq_iff, strictly, Primitive.exists_verdict_iff,
          exists_firstAcceptingStrictly_iff, other, false_or]
        exact ⟨fun described _ _ => described, fun described => described accepted rfl⟩
      · -- What is refused fails with the same fault, since strict checks refuse no less.
        have refused (accepted : Text) :
            schema.firstAccepting compiler primitive.sizeMax value
                primitive.alternatives.definitions ≠ .ok (some accepted) := by
          intro first
          exact valid (checked ▸ Primitive.exists_verdict_iff.mpr ⟨accepted, first⟩)
        refine iff_of_true ?_ fun accepted accepts => absurd ⟨accepted, accepts⟩ valid
        rw [checked, strictly, firstAcceptingStrictly_of_refused refused]

/-- Where an alternative describes strictly what it describes of a value, nothing is lost. -/
theorem outcome_eq_of_describesStrictly
    (kept : ∀ definition ∈ primitive.alternatives.definitions, primitive.Admits value →
      schema.isUsable compiler primitive.sizeMax definition = true →
      schema.Describes definition primitive.sizeMax value →
        schema.DescribesStrictly definition primitive.sizeMax value) :
    (schema.validate compiler primitive value).outcome =
      (schema.validateStrictly compiler primitive value).outcome := by
  rw [outcome_eq_iff]
  intro accepted valid
  by_cases null : primitive.label = Leaf.null.label
  · exact .inl null
  · obtain ⟨admits, definition, tried, described⟩ :=
      (exists_validate_iff null).mp ⟨accepted, valid⟩
    have listed := List.takeWhile_sublist _ |>.subset tried
    have usable := List.mem_takeWhile_imp tried
    exact .inr ⟨definition, tried, kept definition listed admits usable described⟩

/-- The empty value needs no unit, and a primitive of maximum size zero admits no other. -/
theorem outcome_eq_of_empty (empty : value = [] ∨ primitive.sizeMax = 0) :
    (schema.validate compiler primitive value).outcome =
      (schema.validateStrictly compiler primitive value).outcome := by
  refine outcome_eq_of_describesStrictly fun definition _ admits usable described => ?_
  have nothing : value = [] := by
    refine empty.elim id fun zero => ?_
    exact List.eq_nil_of_length_eq_zero (Nat.le_zero.mp (zero ▸ admits.2))
  subst nothing
  obtain ⟨pattern, made⟩ := exists_alternativePattern_of_isUsable usable
  rw [describes_iff_of_pattern made] at described
  rw [describesStrictly_iff_of_pattern made, Pattern.acceptsStrictly_nil_iff]
  exact described

/-- No primitive of maximum size zero stands on a way to a repetition. -/
def KeepsRoom (schema : Schema) (primitive : Primitive) : Prop :=
  ∀ name target chain, primitive.Names name → schema.primitive? name = some target →
    schema.Descends target chain → chain.leaf = .text ∨ chain.leaf = .number →
      ∀ passed ∈ chain.passed, 0 < passed.sizeMax

/-- The patterns of the alternatives then have room in every leaf. -/
theorem KeepsRoom.hasRoom (keeps : schema.KeepsRoom primitive) (positive : 0 < primitive.sizeMax)
    (listed : definition ∈ primitive.alternatives.definitions) {pattern : Pattern}
    (made : schema.alternativePattern primitive.sizeMax definition = .ok pattern) :
    ∀ leaf ∈ pattern.leaves, leaf.1.hasRoom leaf.2 = true := by
  rw [leaves_alternativePattern made]
  intro leaf member
  obtain ⟨chain, inside, rfl⟩ := List.mem_map.mp member
  obtain ⟨name, referred, follows⟩ := List.mem_flatMap.mp inside
  have room (repeats : chain.leaf = .text ∨ chain.leaf = .number) :
      0 < chain.bound (some primitive.sizeMax) := by
    refine LeafChain.bound_pos positive ?_
    rcases mem_referenceChains_iff.mp follows with ⟨target, found, later⟩ | ⟨-, leaf, -, rfl⟩
    · obtain ⟨components, read, refers⟩ := Component.mem_namesIn_iff.mp referred
      obtain ⟨componentsAlso, readAlso, each⟩ := exists_definitionPattern_iff.mp ⟨pattern, made⟩
      obtain rfl := Except.ok.inj (read.symm.trans readAlso)
      have expands := (exists_componentPattern_iff.mp (each _ refers) rfl).2 target found
      have names : primitive.Names name := ⟨definition, listed, components, read, refers⟩
      exact keeps name target chain names found ((mem_leafChains_iff expands).mp later) repeats
    · exact fun passed nowhere => absurd nowhere (List.not_mem_nil)
  obtain ⟨passed, leaf⟩ := chain
  cases leaf with
  | text => exact decide_eq_true (room (.inl rfl))
  | number => exact decide_eq_true (room (.inr rfl))
  | digit => rfl
  | null => rfl

theorem outcome_eq_of_keepsRoom (keeps : schema.KeepsRoom primitive) :
    (schema.validate compiler primitive value).outcome =
      (schema.validateStrictly compiler primitive value).outcome := by
  rcases Nat.eq_zero_or_pos primitive.sizeMax with zero | positive
  · exact outcome_eq_of_empty (.inr zero)
  · refine outcome_eq_of_describesStrictly fun definition listed _ usable described => ?_
    obtain ⟨pattern, made⟩ := exists_alternativePattern_of_isUsable usable
    exact (describesStrictly_iff_of_hasRoom made (keeps.hasRoom positive listed made)).mpr described

/--
A check ends as the strict one unless it accepts a value that no alternative describes strictly.
That can be neither an empty value nor a value of a primitive whose maximum size is zero, and it
takes a primitive of maximum size zero on the way from the alternatives to text or a number.
-/
theorem strict_outcome_iff (schema : Schema) (compiler : Regex.Compiler) (primitive : Primitive)
    (value : Text) :
    ((schema.validate compiler primitive value).outcome =
        (schema.validateStrictly compiler primitive value).outcome ↔
      ∀ accepted, schema.validate compiler primitive value = .ok accepted →
        primitive.label = Leaf.null.label ∨
          ∃ definition ∈ primitive.alternatives.definitions.takeWhile
              (schema.isUsable compiler primitive.sizeMax),
            schema.DescribesStrictly definition primitive.sizeMax value) ∧
      (value = [] ∨ primitive.sizeMax = 0 →
        (schema.validate compiler primitive value).outcome =
          (schema.validateStrictly compiler primitive value).outcome) ∧
      (schema.KeepsRoom primitive →
        (schema.validate compiler primitive value).outcome =
          (schema.validateStrictly compiler primitive value).outcome) :=
  ⟨outcome_eq_iff, outcome_eq_of_empty, outcome_eq_of_keepsRoom⟩

/-- The year of a date has room for its number. -/
theorem strict_outcome_of_date :
    calendar.KeepsRoom date ∧
      (calendar.validate .unlimited date "1900 BC".toList).outcome =
        (calendar.validateStrictly .unlimited date "1900 BC".toList).outcome := by
  have keeps : calendar.KeepsRoom date := by
    intro name target chain names found descends _ passed member
    have named : date.references = ["YEAR".toList, "YEAR".toList] := by decide +kernel
    have same : name = "YEAR".toList := by
      simpa [named] using Primitive.names_iff_mem_references.mp names
    have declared : calendar.primitive? "YEAR".toList = some year := by decide +kernel
    obtain rfl : target = year := Option.some.inj (found.symm.trans (same ▸ declared))
    have made : calendar.primitivePattern 1 none year =
        .ok (.group (.sequence (.leaf .number 4) (.literal []))) := by
      decide +kernel
    have only : calendar.leafChains 1 year = [⟨[year], .number⟩] := by decide +kernel
    have listed := (mem_leafChains_iff ⟨_, made⟩).mpr descends
    rw [only, List.mem_singleton] at listed
    subst listed
    rw [List.mem_singleton.mp member]
    decide
  exact ⟨keeps, (strict_outcome_iff calendar .unlimited date _).2.2 keeps⟩

def blank : Primitive where
  label := "B".toList
  sizeMin := 0
  sizeMax := 0

def marked : Primitive where
  label := "A".toList
  sizeMin := 1
  sizeMax := 9
  alternatives := .ofText "x<B>".toList

/-- A primitive without any value of its own stands behind a mark. -/
def marks : Schema where
  elements := [.primitive marked, .primitive blank]

/-- The length of the whole value does not show that one part of it is longer than admissible. -/
theorem part_above_maximum_accepted :
    ofText "A:= {Size=1:9}\n[x<B>]\nB:= {Size=0}\n".toList = .ok marks ∧
      marks.primitive? "A".toList = some marked ∧
      marks.validate .unlimited marked "xy".toList = .ok (some "x<B>".toList) ∧
      marks.validateStrictly .unlimited marked "xy".toList =
        .error (.value "A".toList "xy".toList) ∧
      (marks.validate .unlimited marked "xy".toList).outcome ≠
        (marks.validateStrictly .unlimited marked "xy".toList).outcome := by
  decide +kernel

end Outcomes

end GedcomGrammar.Schema
