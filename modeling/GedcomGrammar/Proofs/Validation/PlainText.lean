/-
This file proves which values a primitive without a line of alternatives takes.
-/

import GedcomGrammar.Proofs.Pattern.Repetitions
import GedcomGrammar.Proofs.Text.Doubled
import GedcomGrammar.Proofs.Validation.Alternatives

namespace GedcomGrammar

namespace Leaf

variable {value : Text}

theorem textRole_whole_iff_not_isControl {char : Char} :
    textRole char = .whole ↔ char ≠ '@' ∧ ¬Text.IsControl char := by
  rw [textRole_whole_iff, Text.IsControl, not_or, not_lt]

/-- So many units of text are as many characters with their at signs doubled. -/
theorem units_text_iff {count : Nat} :
    Units .text count value ↔ ∃ plain : Text, plain.length = count ∧ plain.FreeOfControls ∧
      value = plain.doubled := by
  constructor
  · intro units
    induction units with
    | none => exact ⟨[], rfl, by simp [Text.FreeOfControls], rfl⟩
    | @whole count char rest role later inductionHypothesis =>
        obtain ⟨plain, rfl, free, rfl⟩ := inductionHypothesis
        obtain ⟨other, printable⟩ := textRole_whole_iff_not_isControl.mp role
        exact ⟨char :: plain, rfl, List.forall_mem_cons.mpr ⟨printable, free⟩,
          (Text.doubled_cons_of_ne other).symm⟩
    | @doubled count char rest role later inductionHypothesis =>
        obtain ⟨plain, rfl, free, rfl⟩ := inductionHypothesis
        obtain rfl := textRole_half_iff.mp role
        refine ⟨'@' :: plain, rfl, List.forall_mem_cons.mpr ⟨?_, free⟩, rfl⟩
        unfold Text.IsControl
        decide
  · rintro ⟨plain, rfl, free, rfl⟩
    induction plain with
    | nil => exact .none
    | cons char rest inductionHypothesis =>
        obtain ⟨printable, freeRest⟩ := List.forall_mem_cons.mp free
        have later := inductionHypothesis freeRest
        by_cases sign : char = '@'
        · subst sign
          exact .doubled (textRole_half_iff.mpr rfl) later
        · rw [Text.doubled_cons_of_ne sign]
          exact .whole (textRole_whole_iff_not_isControl.mpr ⟨sign, printable⟩) later

/-- A value is text under a bound when it is doubled from at most so many characters. -/
theorem accepts_text_iff {bound : Nat} :
    Leaf.text.Accepts bound value ↔ ∃ plain : Text, 1 ≤ plain.length ∧
      plain.length ≤ Pattern.room bound ∧ plain.FreeOfControls ∧ value = plain.doubled := by
  constructor
  · rintro ⟨count, least, most, units⟩
    obtain ⟨plain, rfl, free, rfl⟩ := units_text_iff.mp units
    exact ⟨plain, least, most, free, rfl⟩
  · rintro ⟨plain, least, most, free, rfl⟩
    exact ⟨plain.length, least, most, units_text_iff.mpr ⟨plain, rfl, free, rfl⟩⟩

/-- A value that is no longer than the bound has no more units than there is room for. -/
theorem accepts_text_iff_of_length_le {bound : Nat} (short : value.length ≤ bound) :
    Leaf.text.Accepts bound value ↔
      value ≠ [] ∧ value.FreeOfControls ∧ value.HasEvenRuns := by
  rw [accepts_text_iff, ← Text.exists_eq_doubled_iff]
  constructor
  · rintro ⟨plain, least, -, free, rfl⟩
    refine ⟨?_, Text.freeOfControls_doubled_iff.mpr free, plain, rfl⟩
    intro empty
    rw [Text.doubled_eq_nil_iff.mp empty] at least
    exact absurd least (by decide)
  · rintro ⟨nonempty, free, plain, rfl⟩
    -- There are at least as many characters as units, so the length leaves room for all units.
    have fits := plain.length_le_length_doubled.trans (short.trans (le_max_left bound 1))
    refine ⟨plain, ?_, fits, Text.freeOfControls_doubled_iff.mp free, rfl⟩
    exact List.length_pos_iff.mpr fun empty => nonempty (Text.doubled_eq_nil_iff.mpr empty)

end Leaf

namespace Schema

variable {schema : Schema} {compiler : Regex.Compiler} {bound : Nat}

theorem alternativePattern_default (undeclared : schema.primitive? Leaf.text.label = none) :
    schema.alternativePattern bound Alternatives.defaultDefinition =
      .ok (.sequence (.leaf .text bound) (.literal [])) := by
  have read : Component.ofDefinition Alternatives.defaultDefinition =
      .ok [⟨.primitive, Leaf.text.label⟩] := by
    decide +kernel
  have referred : schema.componentPattern
      (schema.primitivePattern schema.levels (some bound)) bound ⟨.primitive, Leaf.text.label⟩ =
        .ok (.leaf .text bound) := by
    simp only [componentPattern, referencePattern, undeclared, Leaf.ofLabel?_label]
  simp only [alternativePattern, definitionPattern, read, List.mapM_cons, List.mapM_nil, referred]
  rfl

/-- What a primitive without a line of alternatives describes is text. -/
theorem describes_default_iff (undeclared : schema.primitive? Leaf.text.label = none)
    {value : Text} :
    schema.Describes Alternatives.defaultDefinition bound value ↔
      Leaf.text.Accepts bound value := by
  rw [describes_iff_of_pattern (alternativePattern_default undeclared)]
  simp [Pattern.Accepts]

/-- An empty literal adds nothing to what is written. -/
theorem anchoredText_default :
    (Pattern.sequence (.leaf .text bound) (.literal [])).anchoredText =
      (Pattern.leaf .text bound).anchoredText := by
  simp only [Pattern.anchoredText, Pattern.text, Pattern.escaped, List.flatMap_nil,
    List.append_nil]

theorem isUsable_default (undeclared : schema.primitive? Leaf.text.label = none)
    (compiles : compiler.refusal? (Pattern.leaf .text bound).anchoredText = none) :
    schema.isUsable compiler bound Alternatives.defaultDefinition = true := by
  have spelled : Alternatives.spelling? Alternatives.defaultDefinition = .ok none := by
    decide +kernel
  rw [← anchoredText_default] at compiles
  have matched := matcher_eq_ok_iff.mpr ⟨alternativePattern_default undeclared, compiles⟩
  rw [isUsable, spelled, matched]
  rfl

/--
Text under a bound is what comes of at least one and at most so many characters, none of them a
control character, when at signs are doubled. A primitive without a line of alternatives checks
the size, the control characters and the runs of at signs, and the bound on units never matters.
-/
theorem plain_text_values :
    (∀ bound, 1 ≤ bound → ∃ regex, Regex.ofText? (Pattern.leaf .text bound).text = some regex ∧
      ∀ value, regex.Matches value ↔ ∃! plain : Text,
        (1 ≤ plain.length ∧ plain.length ≤ bound) ∧ plain.FreeOfControls ∧
          value = plain.doubled) ∧
      ∀ (schema : Schema) (compiler : Regex.Compiler) (primitive : Primitive) (value : Text),
        schema.primitive? Leaf.text.label = none → primitive.label ≠ Leaf.null.label →
        primitive.alternatives = .default →
        compiler.refusal? (Pattern.leaf .text primitive.sizeMax).anchoredText = none →
        ((∃ accepted, schema.validate compiler primitive value = .ok accepted) ↔
          (primitive.sizeMin ≤ value.length ∧ value.length ≤ primitive.sizeMax) ∧
            value ≠ [] ∧ value.FreeOfControls ∧ value.HasEvenRuns) := by
  constructor
  · intro bound positive
    refine ⟨_, Pattern.ofText?_text _, fun value => ?_⟩
    have grouped : (Pattern.leaf .text bound).Grouped true := trivial
    have room : Pattern.room bound = bound := max_eq_left positive
    rw [Pattern.matches_text_iff grouped, Pattern.Accepts, Leaf.accepts_text_iff, room]
    constructor
    · rintro ⟨plain, least, most, free, rfl⟩
      exact ⟨plain, ⟨⟨least, most⟩, free, rfl⟩, fun other same =>
        Text.doubled_injective same.2.2.symm⟩
    · rintro ⟨plain, ⟨⟨least, most⟩, free, whole⟩, -⟩
      exact ⟨plain, least, most, free, whole⟩
  · intro schema compiler primitive value undeclared other plain compiles
    have tried : primitive.alternatives.definitions.takeWhile
        (schema.isUsable compiler primitive.sizeMax) = [Alternatives.defaultDefinition] := by
      rw [plain]
      exact List.takeWhile_cons_of_pos (isUsable_default undeclared compiles)
    rw [exists_validate_iff other, tried]
    simp only [List.mem_singleton, exists_eq_left, describes_default_iff undeclared]
    refine and_congr_right fun admits => ?_
    exact Leaf.accepts_text_iff_of_length_le admits.2

def mail : Primitive where
  label := "MAIL".toList
  sizeMin := 5
  sizeMax := 90

/-- An address is valid with its at sign doubled, so the run of at signs in it is even. -/
theorem mail_values :
    ({} : Schema).primitive? Leaf.text.label = none ∧ mail.label ≠ Leaf.null.label ∧
      mail.alternatives = .default ∧
      Regex.Compiler.unlimited.refusal? (Pattern.leaf .text mail.sizeMax).anchoredText = none ∧
      ({} : Schema).validate .unlimited mail "a@@b.org".toList = .ok (some "<TEXT>".toList) ∧
      Text.HasEvenRuns "a@@b.org".toList ∧
      ({} : Schema).validate .unlimited mail "a@b.org".toList =
        .error (.value "MAIL".toList "a@b.org".toList) ∧
      ¬(Text.FreeOfControls "a@b.org".toList ∧ Text.HasEvenRuns "a@b.org".toList) := by
  have decided (value : Text) :=
    plain_text_values.2 {} .unlimited mail value rfl (by decide) rfl rfl
  have valid : ({} : Schema).validate .unlimited mail "a@@b.org".toList =
      .ok (some "<TEXT>".toList) := by
    decide +kernel
  have refused : ({} : Schema).validate .unlimited mail "a@b.org".toList =
      .error (.value "MAIL".toList "a@b.org".toList) := by
    decide +kernel
  refine ⟨rfl, by decide, rfl, rfl, valid, ?_, refused, ?_⟩
  · exact ((decided _).mp ⟨_, valid⟩).2.2.2
  · rintro ⟨free, even⟩
    obtain ⟨accepted, accepts⟩ := (decided _).mpr ⟨by decide, by decide, free, even⟩
    exact absurd (refused.symm.trans accepts) (by simp)

end Schema

end GedcomGrammar
