/-
This file proves when a primitive with the label of a leaf is validated as that leaf.
-/

import GedcomGrammar.Proofs.Validation.Alternatives

namespace GedcomGrammar

theorem Leaf.ofLabel?_eq_some_iff {label : Text} {leaf : Leaf} :
    ofLabel? label = some leaf ↔ label = leaf.label := by
  constructor
  · intro named
    have same := List.find?_some named
    rw [beq_iff_eq] at same
    exact same.symm
  · rintro rfl
    exact ofLabel?_label leaf

theorem Leaf.label_injective : Function.Injective Leaf.label := by
  intro first second same
  have named := ofLabel?_label first
  rw [same, ofLabel?_label] at named
  exact (Option.some.inj named).symm

theorem Leaf.Units.number_of_digit {count : Nat} {value : Text} (units : Units .digit count value) :
    Units .number count value := by
  induction units with
  | none => exact .none
  | whole role _ inductionHypothesis => exact .whole role inductionHypothesis
  | doubled role _ inductionHypothesis => exact .doubled role inductionHypothesis

/-- One digit is a number under every bound. -/
theorem Leaf.accepts_number_of_digit {bound : Nat} {value : Text}
    (accepts : Leaf.digit.Accepts bound value) : Leaf.number.Accepts bound value :=
  ⟨1, le_rfl, le_max_right bound 1, accepts.number_of_digit⟩

namespace Schema

variable {schema : Schema} {compiler : Regex.Compiler} {primitive : Primitive} {leaf : Leaf}

theorem pattern_of_leaf (named : Leaf.ofLabel? primitive.label = some leaf) :
    schema.pattern primitive none = .ok (.leaf leaf primitive.sizeMax) := by
  rw [pattern, levels, primitivePattern, named]
  rfl

theorem leaf_expresses (leaf : Leaf) (bound : Nat) :
    Expresses (.leaf leaf bound) fun value => leaf.Accepts bound value :=
  ⟨trivial, fun _ => Iff.rfl⟩

/--
The pattern of a leaf is its own, but validation looks at no label except that of the empty value.
Any other leaf is validated as the leaf when each alternative that can be tried describes no more.
-/
theorem leaf_validates_iff (named : Leaf.ofLabel? primitive.label = some leaf) :
    ∃ pattern regex, schema.pattern primitive none = .ok pattern ∧
      Regex.ofText? pattern.anchoredText = some regex ∧
      ((∀ value accepted,
          schema.validate compiler primitive value = .ok accepted → regex.Matches value) ↔
        leaf = .null ∨
          ∀ definition ∈ primitive.alternatives.definitions.takeWhile
              (schema.isUsable compiler primitive.sizeMax),
            ∀ value, primitive.Admits value →
              schema.Describes definition primitive.sizeMax value →
                leaf.Accepts primitive.sizeMax value) := by
  obtain ⟨regex, written, matchesAll⟩ := (leaf_expresses leaf primitive.sizeMax).exists_regex
  refine ⟨_, regex, pattern_of_leaf named, written, ?_⟩
  have label := Leaf.ofLabel?_eq_some_iff.mp named
  by_cases null : leaf = .null
  · subst null
    refine iff_of_true (fun value accepted valid => ?_) (.inl rfl)
    exact (matchesAll value).mpr ((exists_validate_iff_of_null label).mp ⟨accepted, valid⟩).2
  · have other : primitive.label ≠ Leaf.null.label :=
      fun same => null (Leaf.label_injective (label.symm.trans same))
    rw [or_iff_right null]
    constructor
    · intro sound definition usable value admits described
      obtain ⟨accepted, valid⟩ :=
        (exists_validate_iff other).mpr ⟨admits, definition, usable, described⟩
      exact (matchesAll value).mp (sound value accepted valid)
    · intro contained value accepted valid
      obtain ⟨admits, definition, usable, described⟩ :=
        (exists_validate_iff other).mp ⟨accepted, valid⟩
      exact (matchesAll value).mpr (contained definition usable value admits described)

/-- An alternative that refers to a digit and to nothing else describes numbers. -/
theorem accepts_number_of_describes {bound : Nat} {definition value : Text}
    (made : schema.alternativePattern bound definition =
      .ok (.sequence (.leaf .digit bound) (.literal [])))
    (described : schema.Describes definition bound value) : Leaf.number.Accepts bound value := by
  obtain ⟨left, right, rfl, digit, rfl⟩ := (describes_iff_of_pattern made).mp described
  rw [List.append_nil]
  exact Leaf.accepts_number_of_digit digit

def singleDigit : Primitive where
  label := "NUMBER".toList
  sizeMin := 1
  sizeMax := 9
  alternatives := .ofText "<DIGIT>".toList

def singleDigits : Schema where
  elements := [.primitive singleDigit]

/-- A number whose only alternative is a digit takes nothing that its pattern does not match. -/
theorem leaf_validates_digit :
    ofText "NUMBER:= {Size=1:9}\n[<DIGIT>]".toList = .ok singleDigits ∧
      singleDigits.primitive? "NUMBER".toList = some singleDigit ∧
      Leaf.ofLabel? singleDigit.label = some .number ∧
      singleDigits.validate .unlimited singleDigit "7".toList = .ok (some "<DIGIT>".toList) ∧
      ∃ pattern regex, singleDigits.pattern singleDigit none = .ok pattern ∧
        Regex.ofText? pattern.anchoredText = some regex ∧ regex.Matches "7".toList ∧
        ∀ value accepted,
          singleDigits.validate .unlimited singleDigit value = .ok accepted →
            regex.Matches value := by
  have made : singleDigits.alternativePattern singleDigit.sizeMax "<DIGIT>".toList =
      .ok (.sequence (.leaf .digit singleDigit.sizeMax) (.literal [])) := by
    decide +kernel
  have only : singleDigit.alternatives.definitions = ["<DIGIT>".toList] := by decide +kernel
  have contained : ∀ definition ∈ singleDigit.alternatives.definitions.takeWhile
      (singleDigits.isUsable .unlimited singleDigit.sizeMax),
        ∀ value, singleDigit.Admits value →
          singleDigits.Describes definition singleDigit.sizeMax value →
            Leaf.number.Accepts singleDigit.sizeMax value := by
    intro definition tried value _ described
    have listed := List.takeWhile_sublist _ |>.subset tried
    rw [only, List.mem_singleton] at listed
    exact accepts_number_of_describes made (listed ▸ described)
  have valid : singleDigits.validate .unlimited singleDigit "7".toList =
      .ok (some "<DIGIT>".toList) := by
    decide +kernel
  have named : Leaf.ofLabel? singleDigit.label = some .number := rfl
  obtain ⟨pattern, regex, pictured, written, sound⟩ := leaf_validates_iff named
  have matchesAll := sound.mpr (.inr contained)
  exact ⟨by decide +kernel, by decide +kernel, named, valid, pattern, regex, pictured, written,
    matchesAll _ _ valid, matchesAll⟩

def number : Primitive where
  label := "NUMBER".toList
  sizeMin := 1
  sizeMax := 9

def numbers : Schema where
  elements := [.primitive number]

/-- Without alternatives of its own a number takes any text. -/
theorem letters_validate_as_number :
    ofText "NUMBER:= {Size=1:9}".toList = .ok numbers ∧
      numbers.primitive? "NUMBER".toList = some number ∧
      numbers.validate .unlimited number "abc".toList = .ok (some "<TEXT>".toList) ∧
      ∃ pattern regex, numbers.pattern number none = .ok pattern ∧
        Regex.ofText? pattern.anchoredText = some regex ∧ ¬regex.Matches "abc".toList := by
  obtain ⟨regex, written, matchesAll⟩ := (leaf_expresses .number 9).exists_regex
  refine ⟨by decide +kernel, by decide +kernel, by decide +kernel, _, regex,
    @pattern_of_leaf numbers number .number rfl, written, ?_⟩
  have refused : (Pattern.leaf .number 9).accepts "abc".toList = false := by decide +kernel
  rw [matchesAll]
  intro accepts
  have accepted : (Pattern.leaf .number 9).accepts "abc".toList = true :=
    Pattern.accepts_iff.mpr accepts
  exact absurd (refused.symm.trans accepted) (by decide)

end Schema

end GedcomGrammar
