/-
This file proves that a cap restricts the values of a pattern and has no effect from a size on.
-/

import GedcomGrammar.Proofs.Expansion.Chains
import GedcomGrammar.Proofs.Pattern.Meaning

namespace GedcomGrammar

/-- A leaf keeps its values under a larger bound. -/
theorem Leaf.Accepts.mono {leaf : Leaf} {lower upper : Nat} {value : Text} (le : lower ≤ upper)
    (accepted : leaf.Accepts lower value) : leaf.Accepts upper value := by
  have wider : Pattern.room lower ≤ Pattern.room upper := max_le_max_right 1 le
  cases leaf with
  | text =>
      obtain ⟨count, least, most, units⟩ := accepted
      exact ⟨count, least, most.trans wider, units⟩
  | number =>
      obtain ⟨count, least, most, units⟩ := accepted
      exact ⟨count, least, most.trans wider, units⟩
  | digit => exact accepted
  | null => exact accepted

namespace Primitive

variable {primitive : Primitive} {lower upper : Nat}

theorem boundUnder_le_boundUnder (le : lower ≤ upper) :
    primitive.boundUnder (some lower) ≤ primitive.boundUnder (some upper) :=
  min_le_min_right primitive.sizeMax le

theorem boundUnder_le_sizeMax (cap : Option Nat) :
    primitive.boundUnder cap ≤ primitive.sizeMax := by
  cases cap with
  | none => exact le_rfl
  | some cap => exact min_le_right cap primitive.sizeMax

end Primitive

namespace Schema

variable {schema : Schema}

mutual

/-- A primitive keeps its values under a larger bound, as deep as its references go. -/
theorem Denotes.mono {primitive : Primitive} {lower upper : Nat} {value : Text}
    (le : lower ≤ upper) :
    schema.Denotes primitive lower value → schema.Denotes primitive upper value
  | .leaf named accepted => .leaf named (accepted.mono le)
  | .alternative composite listed read spelled =>
      .alternative composite listed read (spelled.mono le)

theorem Fills.mono {component : Component} {lower upper : Nat} {value : Text}
    (le : lower ≤ upper) :
    schema.Fills component lower value → schema.Fills component upper value
  | .own other => .own other
  | .declared refers found denoted =>
      .declared refers found (denoted.mono (min_le_min_right _ le))
  | .undeclared refers missing named accepted =>
      .undeclared refers missing named (accepted.mono le)

theorem Spells.mono {components : List Component} {lower upper : Nat} {value : Text}
    (le : lower ≤ upper) :
    schema.Spells components lower value → schema.Spells components upper value
  | .nil => .nil
  | .cons filled spelled => .cons (filled.mono le) (spelled.mono le)

end

/-- A cap has no effect on a pattern but through what the first primitive leaves of it. -/
theorem primitivePattern_of_boundUnder {levels : Nat} {primitive : Primitive}
    {cap other : Option Nat}
    (same : primitive.boundUnder cap = primitive.boundUnder other) :
    schema.primitivePattern levels cap primitive =
      schema.primitivePattern levels other primitive := by
  cases levels with
  | zero => rfl
  | succ levels => rw [primitivePattern, primitivePattern, same]

/-- The written form of a pattern, without anchors, matches the values of its primitive. -/
theorem exists_regex_of_pattern {primitive : Primitive} {cap : Option Nat} {pattern : Pattern}
    (made : schema.pattern primitive cap = .ok pattern) :
    ∃ regex, Regex.ofText? pattern.text = some regex ∧
      ∀ value, regex.Matches value ↔
        schema.Denotes primitive (primitive.boundUnder cap) value := by
  have expressed := primitivePattern_expresses made
  refine ⟨_, pattern.ofText?_text, fun value => ?_⟩
  exact (Pattern.matches_text_iff expressed.grouped.inGroup value).trans (expressed.accepts value)

/-- The repetitions in the text of a pattern come from the chains to its leaves. -/
theorem exists_repetitions_of_pattern {primitive : Primitive} {cap : Option Nat}
    {pattern : Pattern} (made : schema.pattern primitive cap = .ok pattern) :
    ∃ regex, Regex.ofText? pattern.text = some regex ∧
      regex.repetitions = (schema.leafChains schema.levels primitive).filterMap fun chain =>
        chain.leaf.repetition? (chain.bound cap) := by
  refine ⟨_, pattern.ofText?_text, ?_⟩
  rw [Pattern.repetitions_text, leaves_primitivePattern made, List.filterMap_map]
  rfl

/--
Where a pattern can be made under a cap, it can be made under a larger one and under none.
The pattern then matches no fewer values, and from the maximum size on a cap changes nothing.
Each repetition has room for the least of the cap and the sizes along its chain, and for one.
-/
theorem pattern_under_caps {primitive : Primitive} {lower upper : Nat} {narrow : Pattern}
    (le : lower ≤ upper) (made : schema.pattern primitive (some lower) = .ok narrow) :
    (∃ wide uncapped, schema.pattern primitive (some upper) = .ok wide ∧
      schema.pattern primitive none = .ok uncapped ∧
      ∃ narrowRegex wideRegex uncappedRegex, Regex.ofText? narrow.text = some narrowRegex ∧
        Regex.ofText? wide.text = some wideRegex ∧
        Regex.ofText? uncapped.text = some uncappedRegex ∧
        ∀ value, narrowRegex.Matches value →
          wideRegex.Matches value ∧ uncappedRegex.Matches value) ∧
      schema.pattern primitive (some (min lower primitive.sizeMax)) = .ok narrow ∧
      (∀ cap, primitive.sizeMax ≤ cap →
        schema.pattern primitive (some cap) = schema.pattern primitive none) ∧
      (∀ cap pattern, schema.pattern primitive cap = .ok pattern →
        ∃ regex, Regex.ofText? pattern.text = some regex ∧
          regex.repetitions = (schema.leafChains schema.levels primitive).filterMap fun chain =>
            chain.leaf.unit?.map fun unit => ⟨unit, 1, max 1 (chain.bound cap)⟩) ∧
      ∀ chain, chain ∈ schema.leafChains schema.levels primitive ↔
        schema.Descends primitive chain := by
  have grounded := exists_pattern_iff_grounded.mp ⟨narrow, made⟩
  refine ⟨?_, ?_, ?_, ?_, ?_⟩
  · have makes (cap : Option Nat) : ∃ pattern, schema.pattern primitive cap = .ok pattern :=
      exists_pattern_iff_grounded.mpr grounded
    obtain ⟨wide, madeWide⟩ := makes (some upper)
    obtain ⟨uncapped, madeUncapped⟩ := makes none
    obtain ⟨narrowRegex, readNarrow, matchesNarrow⟩ := exists_regex_of_pattern made
    obtain ⟨wideRegex, readWide, matchesWide⟩ := exists_regex_of_pattern madeWide
    obtain ⟨uncappedRegex, readUncapped, matchesUncapped⟩ := exists_regex_of_pattern madeUncapped
    refine ⟨wide, uncapped, madeWide, madeUncapped, narrowRegex, wideRegex, uncappedRegex,
      readNarrow, readWide, readUncapped, fun value found => ?_⟩
    have denoted := (matchesNarrow value).mp found
    exact ⟨(matchesWide value).mpr (denoted.mono (Primitive.boundUnder_le_boundUnder le)),
      (matchesUncapped value).mpr (denoted.mono (Primitive.boundUnder_le_sizeMax _))⟩
  · have same : primitive.boundUnder (some (min lower primitive.sizeMax)) =
        primitive.boundUnder (some lower) := by
      simp [Primitive.boundUnder]
    exact (primitivePattern_of_boundUnder same).trans made
  · intro cap large
    exact primitivePattern_of_boundUnder (min_eq_right large)
  · intro cap pattern madePattern
    exact exists_repetitions_of_pattern madePattern
  · intro chain
    exact mem_leafChains_iff ⟨narrow, made⟩

/-- Both alternatives of a date come to a number by the year, whose own size is above the cap. -/
theorem datePattern_under_caps :
    3 ≤ 5 ∧ calendar.pattern date (some 3) = .ok datePattern ∧
      (∃ wide, calendar.pattern date (some 5) = .ok wide) ∧
      (∀ cap, 9 ≤ cap → calendar.pattern date (some cap) = calendar.pattern date none) ∧
      ∃ regex, Regex.ofText? datePattern.text = some regex ∧
        regex.repetitions = [⟨Leaf.digitUnit, 1, 3⟩, ⟨Leaf.digitUnit, 1, 3⟩] := by
  have made : calendar.pattern date (some 3) = .ok datePattern := by decide +kernel
  obtain ⟨⟨wide, _, madeWide, -⟩, -, saturates, repeats, -⟩ :=
    pattern_under_caps (by decide : 3 ≤ 5) made
  obtain ⟨regex, read, repetitions⟩ := repeats _ _ made
  refine ⟨by decide, made, ⟨wide, madeWide⟩, saturates, regex, read, ?_⟩
  rw [repetitions]
  decide +kernel

end Schema

end GedcomGrammar
