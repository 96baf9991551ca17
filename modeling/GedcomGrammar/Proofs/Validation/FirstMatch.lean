/-
This file proves that the earliest alternative that settles a value decides it.
-/

import GedcomGrammar.Proofs.Validation.Redeclared

namespace GedcomGrammar.Schema

variable {schema first second : Schema} {compiler : Regex.Compiler} {primitive : Primitive}
  {definition value : Text} {definitions : List Text} {bound : Nat}

/-- An alternative decides what it accepts, and everything if it cannot be evaluated. -/
def decides (schema : Schema) (compiler : Regex.Compiler) (bound : Nat)
    (value definition : Text) : Bool :=
  match schema.alternativeAccepts compiler bound definition value with
  | .ok false => false
  | _ => true

/-- The alternatives after the first one that decides are not looked at. -/
theorem firstAccepting_eq_find? :
    schema.firstAccepting compiler bound value definitions =
      match definitions.find? (schema.decides compiler bound value) with
      | none => .ok none
      | some definition =>
          (schema.alternativeAccepts compiler bound definition value).map
            fun _ => some definition := by
  induction definitions with
  | nil => rfl
  | cons definition rest inductionHypothesis =>
      rw [firstAccepting, List.find?_cons, decides]
      rcases decided : schema.alternativeAccepts compiler bound definition value
        with fault | (_ | _)
      · simp [decided, Except.map]
      · exact inductionHypothesis
      · simp [decided, Except.map]

theorem firstAccepting_append
    (settled : schema.firstAccepting compiler bound value definitions ≠ .ok none)
    (more : List Text) :
    schema.firstAccepting compiler bound value (definitions ++ more) =
      schema.firstAccepting compiler bound value definitions := by
  rw [firstAccepting_eq_find?] at settled
  rw [firstAccepting_eq_find?, firstAccepting_eq_find?, List.find?_append]
  cases found : definitions.find? (schema.decides compiler bound value) with
  | none => simp [found] at settled
  | some definition => rfl

theorem accepts_of_firstAccepting
    (accepted : schema.firstAccepting compiler bound value definitions = .ok (some definition)) :
    definition ∈ definitions ∧
      schema.alternativeAccepts compiler bound definition value = .ok true := by
  rw [firstAccepting_eq_find?] at accepted
  split at accepted
  · simp at accepted
  · rename_i chosen found
    obtain ⟨answer, decided, same⟩ := map_eq_ok_iff.mp accepted
    obtain rfl := Option.some.inj same
    have deciding := List.find?_some found
    rw [decides, decided] at deciding
    cases answer with
    | false => exact absurd deciding (by simp)
    | true => exact ⟨List.mem_of_find?_eq_some found, decided⟩

section Verdicts

/-- The sizes alone refuse a value of another length. -/
theorem validate_of_size (schema : Schema) (compiler : Regex.Compiler) (primitive : Primitive)
    (value : Text) :
    (value.length < primitive.sizeMin →
        schema.validate compiler primitive value =
          .error (.minSize primitive.label value.length primitive.sizeMin)) ∧
      (primitive.sizeMin ≤ value.length → primitive.sizeMax < value.length →
        schema.validate compiler primitive value =
          .error (.maxSize primitive.label value.length primitive.sizeMax)) := by
  constructor
  · intro short
    rw [validate, Primitive.settled?, if_pos short]
  · intro long short
    rw [validate, Primitive.settled?, if_neg (not_lt.mpr long), if_pos short]

/-- A value of another length is refused alike whatever the alternatives are. -/
theorem validate_of_not_admits (outside : ¬primitive.Admits value) (alternatives : Alternatives) :
    second.validate compiler { primitive with alternatives } value =
      first.validate compiler primitive value := by
  obtain ⟨below, above⟩ := first.validate_of_size compiler primitive value
  obtain ⟨belowAlso, aboveAlso⟩ :=
    second.validate_of_size compiler { primitive with alternatives } value
  by_cases short : value.length < primitive.sizeMin
  · rw [below short]
    exact belowAlso short
  · have long : primitive.sizeMax < value.length :=
      lt_of_not_ge fun within => outside ⟨not_lt.mp short, within⟩
    rw [above (not_lt.mp short) long]
    exact aboveAlso (not_lt.mp short) long

variable (other : primitive.label ≠ Leaf.null.label)

include other

/-- The alternatives alone settle a value of admissible length. -/
theorem validate_of_admits (schema : Schema) (compiler : Regex.Compiler)
    (admits : primitive.Admits value) (alternatives : Alternatives) :
    schema.validate compiler { primitive with alternatives } value =
      primitive.verdict value
        (schema.firstAccepting compiler primitive.sizeMax value alternatives.definitions) := by
  have admitted : ({ primitive with alternatives } : Primitive).Admits value := admits
  have unnamed : ({ primitive with alternatives } : Primitive).label ≠ Leaf.null.label := other
  rw [validate, Primitive.settled?_of_admits admitted, if_neg unnamed]
  rfl

/-- Further alternatives change nothing for a value that those before them settle. -/
theorem validate_append
    (settled : first.validate compiler primitive value ≠ .error (.value primitive.label value))
    (same : ∀ definition ∈ primitive.alternatives.definitions,
      second.alternativeAccepts compiler primitive.sizeMax definition value =
        first.alternativeAccepts compiler primitive.sizeMax definition value) (more : List Text) :
    second.validate compiler (primitive.append more) value =
      first.validate compiler primitive value := by
  by_cases admits : primitive.Admits value
  · have verdict := validate_of_admits other first compiler admits primitive.alternatives
    have answered : second.firstAccepting compiler primitive.sizeMax value
        primitive.alternatives.definitions ≠ .ok none := by
      intro unanswered
      rw [firstAccepting_congr_of_accepts same] at unanswered
      rw [unanswered] at verdict
      exact settled verdict
    calc second.validate compiler (primitive.append more) value
        = primitive.verdict value (second.firstAccepting compiler primitive.sizeMax value
            (primitive.alternatives.definitions ++ more)) :=
          validate_of_admits other second compiler admits _
      _ = primitive.verdict value (first.firstAccepting compiler primitive.sizeMax value
            primitive.alternatives.definitions) := by
          rw [firstAccepting_append answered, firstAccepting_congr_of_accepts same]
      _ = first.validate compiler primitive value := verdict.symm
  · exact validate_of_not_admits admits _

theorem validate_only (admits : primitive.Admits value)
    (accepts : schema.alternativeAccepts compiler primitive.sizeMax definition value = .ok true) :
    schema.validate compiler (primitive.only definition) value = .ok (some definition) := by
  refine (validate_of_admits other schema compiler admits _).trans ?_
  rw [firstAccepting, accepts]
  rfl

/-- A valid value is accepted by one of the alternatives, which is the one that is named. -/
theorem accepts_of_validate {accepted : Option Text}
    (valid : schema.validate compiler primitive value = .ok accepted) :
    ∃ definition ∈ primitive.alternatives.definitions, accepted = some definition ∧
      schema.alternativeAccepts compiler primitive.sizeMax definition value = .ok true := by
  have verdict :=
    validate_of_admits other schema compiler (admits_of_validate valid) primitive.alternatives
  have settled := verdict.symm.trans valid
  obtain ⟨definition, answer⟩ := Primitive.exists_verdict_iff.mp ⟨accepted, settled⟩
  obtain ⟨listed, accepts⟩ := accepts_of_firstAccepting answer
  rw [answer] at settled
  exact ⟨definition, listed, (Except.ok.inj settled).symm, accepts⟩

end Verdicts

/--
A value of another length is refused for its length, whatever the schema and the alternatives are.
The earliest alternative that accepts any other value or cannot be evaluated decides it. Further
alternatives then change nothing, and an accepted value needs no alternative but the one that is
named, also when the primitive is declared with its other alternatives.
-/
theorem earliest_alternative_decides (schema : Schema) (compiler : Regex.Compiler)
    (primitive : Primitive) (value : Text) (other : primitive.label ≠ Leaf.null.label) :
    (∀ (another : Schema) (alternatives : Alternatives),
        (value.length < primitive.sizeMin →
          another.validate compiler { primitive with alternatives } value =
            .error (.minSize primitive.label value.length primitive.sizeMin)) ∧
        (primitive.sizeMin ≤ value.length → primitive.sizeMax < value.length →
          another.validate compiler { primitive with alternatives } value =
            .error (.maxSize primitive.label value.length primitive.sizeMax))) ∧
      (primitive.Admits value →
        schema.validate compiler primitive value =
          match primitive.alternatives.definitions.find?
              (schema.decides compiler primitive.sizeMax value) with
          | none => .error (.value primitive.label value)
          | some definition =>
              match schema.alternativeAccepts compiler primitive.sizeMax definition value with
              | .error error => .error (.pattern error)
              | .ok _ => .ok (some definition)) ∧
      (schema.validate compiler primitive value ≠ .error (.value primitive.label value) →
        ∀ more, schema.validate compiler (primitive.append more) value =
            schema.validate compiler primitive value ∧
          (schema.primitive? primitive.label = some primitive →
            (schema.insert (.primitive (primitive.append more))).validate compiler
                (primitive.append more) value =
              schema.validate compiler primitive value)) ∧
      ∀ accepted, schema.validate compiler primitive value = .ok accepted →
        ∃ definition ∈ primitive.alternatives.definitions, accepted = some definition ∧
          schema.validate compiler (primitive.only definition) value = .ok (some definition) ∧
          (schema.primitive? primitive.label = some primitive →
            (schema.insert (.primitive (primitive.only definition))).validate compiler
                (primitive.only definition) value =
              .ok (some definition)) := by
  refine ⟨fun another alternatives =>
      another.validate_of_size compiler { primitive with alternatives } value,
    fun admits => ?_,
    fun settled more => ⟨?_, fun declared => ?_⟩, fun accepted valid => ?_⟩
  · rw [validate_of_admits other schema compiler admits primitive.alternatives,
      firstAccepting_eq_find?]
    split
    · rfl
    · cases schema.alternativeAccepts compiler primitive.sizeMax _ value <;> rfl
  · exact validate_append other settled (fun _ _ => rfl) more
  · exact validate_append other settled
      (fun definition listed => alternativeAccepts_insert_append declared listed more) more
  · have admits := admits_of_validate valid
    obtain ⟨definition, listed, named, accepts⟩ := accepts_of_validate other valid
    refine ⟨definition, listed, named, validate_only other admits accepts, fun declared => ?_⟩
    exact validate_only other admits (alternativeAccepts_insert_only declared listed accepts)

/-- The second alternative refers to its own primitive, so it cannot be evaluated. -/
def duration : Primitive where
  label := "DURATION".toList
  sizeMin := 1
  sizeMax := 9
  alternatives := .ofText "<NUMBER>y|<DURATION>".toList

def durationSchema : Schema where
  elements := [.primitive duration]

/-- What comes after the alternative that cannot be evaluated is never tried. -/
theorem earliest_alternative_decides_duration :
    duration.label ≠ Leaf.null.label ∧
      durationSchema.primitive? duration.label = some duration ∧
      (durationSchema.insert (.primitive (duration.append ["SHORT".toList]))).validate .unlimited
          (duration.append ["SHORT".toList]) "SHORT".toList =
        .error (.pattern (.tooDeep 32)) ∧
      ∃ definition ∈ duration.alternatives.definitions,
        (durationSchema.insert (.primitive (duration.only definition))).validate .unlimited
            (duration.only definition) "12y".toList =
          .ok (some definition) := by
  have other : duration.label ≠ Leaf.null.label := by decide
  have declared : durationSchema.primitive? duration.label = some duration := by decide +kernel
  have failed : durationSchema.validate .unlimited duration "SHORT".toList =
      .error (.pattern (.tooDeep 32)) := by decide +kernel
  have valid : durationSchema.validate .unlimited duration "12y".toList =
      .ok (some "<NUMBER>y".toList) := by decide +kernel
  obtain ⟨-, -, kept, -⟩ :=
    earliest_alternative_decides durationSchema .unlimited duration "SHORT".toList other
  obtain ⟨-, -, -, single⟩ :=
    earliest_alternative_decides durationSchema .unlimited duration "12y".toList other
  obtain ⟨definition, listed, -, -, alone⟩ := single _ valid
  have refused : durationSchema.validate .unlimited duration "SHORT".toList ≠
      .error (.value duration.label "SHORT".toList) := by
    rw [failed]
    decide
  have settled := kept refused ["SHORT".toList]
  exact ⟨other, declared, (settled.2 declared).trans failed, definition, listed, alone declared⟩

end GedcomGrammar.Schema
