/-
This file proves which lines are headers of primitives, and that a header pattern finds the same.
-/

import GedcomGrammar.Heading
import GedcomGrammar.Proofs.Text.Decimals

namespace GedcomGrammar

namespace Text

theorem isDigit_iff {char : Char} : char.isDigit = true ↔ '0' ≤ char ∧ char ≤ '9' := by
  simp [Char.isDigit, Char.le_def]

theorem isUpper_iff {char : Char} : char.isUpper = true ↔ 'A' ≤ char ∧ char ≤ 'Z' :=
  decide_eq_true_iff

/-- A number is read from exactly those digits that write it. -/
theorem number?_eq_some_iff {limit number : Nat} {text : Text} :
    number? limit text = some number ↔ text.Writes number ∧ number < limit := by
  have digits : text.all Char.isDigit = true ↔ ∀ char ∈ text, '0' ≤ char ∧ char ≤ '9' := by
    simp only [List.all_eq_true, isDigit_iff]
  rw [number?, Option.ite_none_right_eq_some, digits, Option.some.injEq]
  constructor
  · intro read
    obtain ⟨⟨nonempty, each, small⟩, rfl⟩ := read
    exact ⟨⟨nonempty, each, rfl⟩, small⟩
  · intro written
    obtain ⟨⟨nonempty, each, rfl⟩, small⟩ := written
    exact ⟨⟨nonempty, each, small⟩, rfl⟩

namespace Writes

variable {digits : Text} {number : Nat}

theorem isDigit (written : digits.Writes number) : ∀ char ∈ digits, char.isDigit = true :=
  fun char member => isDigit_iff.mpr (written.each char member)

theorem notMem_colon (written : digits.Writes number) : ':' ∉ digits := fun member =>
  absurd (written.isDigit ':' member) (by decide)

end Writes

theorem writes_decimal (number : Nat) : (decimal number).Writes number :=
  (number?_eq_some_iff.mp (number?_decimal (Nat.lt_succ_self number))).1

/-- Without a plus sign a number is read as it stands. -/
theorem signedNumber?_of_notMem {limit : Nat} {text : Text} (noPlus : '+' ∉ text) :
    signedNumber? limit text = number? limit text := by
  unfold signedNumber?
  split
  · exact absurd List.mem_cons_self noPlus
  · rfl

end Text

namespace Primitive

variable {line label sizes : Text} {min max : Nat}

/-- Two sizes are read from exactly those texts that write them. -/
theorem sizes?_eq_some_iff :
    sizes? sizes = some (min, max) ↔
      WritesSizes sizes min max ∧ min < sizeLimit ∧ max < sizeLimit := by
  constructor
  · intro read
    unfold sizes? at read
    split at read
    · rename_i lower upper cut
      simp only [Option.bind_eq_bind, Option.bind_eq_some_iff, Option.some.injEq,
        Prod.mk.injEq] at read
      obtain ⟨_, readMin, _, readMax, rfl, rfl⟩ := read
      obtain ⟨writtenMin, minFits⟩ := Text.number?_eq_some_iff.mp readMin
      obtain ⟨writtenMax, maxFits⟩ := Text.number?_eq_some_iff.mp readMax
      have whole := Text.eq_of_cut? cut
      rw [List.append_assoc, List.singleton_append] at whole
      exact ⟨whole ▸ .range writtenMin writtenMax, minFits, maxFits⟩
    · obtain ⟨size, single, same⟩ := Option.map_eq_some_iff.mp read
      obtain ⟨written, fits⟩ := Text.number?_eq_some_iff.mp single
      rw [Prod.mk.injEq] at same
      obtain ⟨rfl, rfl⟩ := same
      exact ⟨.single written, fits, fits⟩
  · intro writes
    obtain ⟨written, minFits, maxFits⟩ := writes
    cases written with
    | single written =>
        have uncut : Text.cut? [':'] sizes = none := by
          rw [Text.cut?_eq_none_iff (by decide), List.singleton_infix_iff]
          exact written.notMem_colon
        rw [sizes?, uncut]
        simp only [Text.number?_eq_some_iff.mpr ⟨written, minFits⟩, Option.map_some]
    | range writtenMin writtenMax =>
        rw [sizes?, Text.cut?_singleton_append _ writtenMin.notMem_colon]
        simp only [Text.number?_eq_some_iff.mpr ⟨writtenMin, minFits⟩,
          Text.number?_eq_some_iff.mpr ⟨writtenMax, maxFits⟩, Option.bind_eq_bind,
          Option.bind_some]

theorem isLabel_iff : IsLabel label ↔ label ≠ [] ∧ label.all isLabelChar = true := by
  have each : label.all isLabelChar = true ↔ ∀ char ∈ label,
      'A' ≤ char ∧ char ≤ 'Z' ∨ '0' ≤ char ∧ char ≤ '9' ∨ char = '_' ∨ char = ':' := by
    simp only [List.all_eq_true, isLabelChar, Bool.or_eq_true, beq_iff_eq, Text.isUpper_iff,
      Text.isDigit_iff, or_assoc]
  rw [each]
  exact ⟨fun isLabel => ⟨isLabel.nonempty, isLabel.each⟩, fun both => ⟨both.1, both.2⟩⟩

theorem IsLabel.notMem_equals (isLabel : IsLabel label) : '=' ∉ label := fun member =>
  absurd (List.all_eq_true.mp (isLabel_iff.mp isLabel).2 '=' member) (by decide)

/-- A label and the sizes are found where they stand. -/
theorem header?_headerLine (isLabel : IsLabel label) :
    header? (headerLine label sizes) = (sizes? sizes).map fun sizes => (label, sizes) := by
  have cut : Text.cut? (":= ".toList ++ '{' :: "Size=".toList) (headerLine label sizes) =
      some (label, sizes ++ ['}']) := by
    have found := @Text.cut?_append_of_notMem ':' '=' (' ' :: '{' :: "Size=".toList) label
      (sizes ++ ['}']) (by decide) isLabel.notMem_equals
    simpa [headerLine] using found
  have inner : Text.dropTail? ['}'] (sizes ++ ['}']) = some sizes :=
    Text.dropTail?_eq_some_iff.mpr rfl
  rw [header?, cut]
  simp only [Option.bind_eq_bind, Option.bind_some, inner]
  exact if_pos (isLabel_iff.mp isLabel)

/-- The header of a line is found exactly if the line is one. -/
theorem header?_eq_some_iff : header? line = some (label, min, max) ↔ Heads line label min max := by
  constructor
  · intro found
    simp only [header?, Option.bind_eq_bind, Option.bind_eq_some_iff,
      Option.ite_none_right_eq_some, Option.map_eq_some_iff, Prod.mk.injEq] at found
    obtain ⟨⟨front, rest⟩, cut, sizes, inner, labelled, read, sized, rfl, rfl⟩ := found
    obtain ⟨written, minFits, maxFits⟩ := sizes?_eq_some_iff.mp sized
    have closed : rest = sizes ++ ['}'] := Text.dropTail?_eq_some_iff.mp inner
    have whole := Text.eq_of_cut? cut
    refine ⟨isLabel_iff.mpr labelled, ⟨sizes, ?_, written⟩, minFits, maxFits⟩
    rw [whole, closed, headerLine]
    simp
  · intro heads
    obtain ⟨isLabel, ⟨sizes, rfl, written⟩, minFits, maxFits⟩ := heads
    rw [header?_headerLine isLabel, sizes?_eq_some_iff.mpr ⟨written, minFits, maxFits⟩,
      Option.map_some]

theorem Heads.unique {otherLabel : Text} {otherMin otherMax : Nat}
    (heads : Heads line label min max) (others : Heads line otherLabel otherMin otherMax) :
    label = otherLabel ∧ min = otherMin ∧ max = otherMax := by
  have same := (header?_eq_some_iff.mpr heads).symm.trans (header?_eq_some_iff.mpr others)
  simpa using same

/-- A line is taken for exactly what it declares. -/
theorem ofHeader_eq_iff {result : Except FormatError Primitive} :
    ofHeader line = result ↔ Heading line result := by
  constructor
  · rintro rfl
    unfold ofHeader
    split
    · rename_i none
      refine .malformed fun label min max heads => ?_
      rw [header?_eq_some_iff.mpr heads] at none
      exact absurd none (by simp)
    · rename_i label min max found
      have heads := header?_eq_some_iff.mp found
      split
      · rename_i inverse
        exact .inverted heads inverse
      · rename_i ordered
        exact .declared heads (Nat.le_of_not_lt ordered)
  · intro heading
    cases heading with
    | declared heads ordered =>
        rw [ofHeader, header?_eq_some_iff.mpr heads]
        exact if_neg (Nat.not_lt.mpr ordered)
    | inverted heads inverse =>
        rw [ofHeader, header?_eq_some_iff.mpr heads]
        exact if_pos inverse
    | malformed headless =>
        have none : header? line = none := by
          rw [Option.eq_none_iff_forall_ne_some]
          rintro ⟨label, min, max⟩ found
          exact headless label min max (header?_eq_some_iff.mp found)
        rw [ofHeader, none]

theorem writesSizes_sizeText (primitive : Primitive) :
    WritesSizes primitive.sizeText primitive.sizeMin primitive.sizeMax := by
  unfold sizeText
  split
  · rename_i single
    rw [single]
    exact .single (Text.writes_decimal primitive.sizeMin)
  · exact .range (Text.writes_decimal primitive.sizeMin) (Text.writes_decimal primitive.sizeMax)

/-- The written header of a primitive declares its label and its sizes. -/
theorem heads_headerText {primitive : Primitive} (isLabel : IsLabel primitive.label)
    (ordered : primitive.sizeMin ≤ primitive.sizeMax) (fits : primitive.sizeMax < UInt64.size) :
    Heads primitive.headerText primitive.label primitive.sizeMin primitive.sizeMax where
  isLabel := isLabel
  whole := by
    refine ⟨primitive.sizeText, ?_, primitive.writesSizes_sizeText⟩
    simp [headerText, headerLine]
  minFits := Nat.lt_of_le_of_lt ordered fits
  maxFits := fits

/-- A primitive that a line declares is declared by its own header again. -/
theorem ofHeader_headerText_of_ofHeader {primitive : Primitive}
    (read : ofHeader line = .ok primitive) : ofHeader primitive.headerText = .ok primitive := by
  cases ofHeader_eq_iff.mp read with
  | @declared label min max heads ordered =>
      have again : Heads (headerText { label, sizeMin := min, sizeMax := max }) label min max :=
        heads_headerText heads.isLabel ordered heads.maxFits
      exact ofHeader_eq_iff.mpr (.declared again ordered)

section Classes

variable {digit : DigitClass}

theorem DigitClass.Run.notMem_plus {text : Text} (run : digit.Run text) : '+' ∉ text := by
  intro member
  have plus := run.2 '+' member
  rw [digit.noPlus] at plus
  exact Bool.noConfusion plus

theorem DigitClass.run_of_writes (digit : DigitClass) {text : Text} {number : Nat}
    (written : text.Writes number) : digit.Run text :=
  ⟨written.nonempty, fun char member => digit.ascii char (written.isDigit char member)⟩

theorem Captures.notMem_plus (captures : Captures digit line label sizes) : '+' ∉ sizes := by
  rcases captures.digits with single | ⟨lower, upper, rfl, runLower, runUpper⟩
  · exact single.notMem_plus
  · simp [runLower.notMem_plus, runUpper.notMem_plus]

/-- A header is matched by its pattern, whatever other digits the class has. -/
theorem Heads.captures (heads : Heads line label min max) (digit : DigitClass) :
    ∃ sizes, Captures digit line label sizes := by
  obtain ⟨sizes, whole, written⟩ := heads.whole
  refine ⟨sizes, heads.isLabel, whole, ?_⟩
  cases written with
  | single written => exact .inl (digit.run_of_writes written)
  | range writtenMin writtenMax =>
      exact .inr ⟨_, _, rfl, digit.run_of_writes writtenMin, digit.run_of_writes writtenMax⟩

/-- A line that no pattern matches is no header. -/
theorem ofHeader_of_uncaptured (uncaptured : ∀ label sizes, ¬Captures digit line label sizes) :
    ofHeader line = .error (.header .primitive line) := by
  refine ofHeader_eq_iff.mpr (.malformed fun label min max heads => ?_)
  obtain ⟨sizes, captures⟩ := heads.captures digit
  exact uncaptured label sizes captures

/-- Other digits than the ASCII ones are matched and then make no number. -/
theorem Captures.ofGroups_eq (captures : Captures digit line label sizes) :
    ofGroups line label sizes = ofHeader line := by
  have noPlus := captures.notMem_plus
  have found : header? line = (sizes? sizes).map fun sizes => (label, sizes) := by
    rw [captures.whole, header?_headerLine captures.isLabel]
  rw [ofGroups, ofHeader, found, sizes?]
  cases cut : Text.cut? [':'] sizes with
  | none =>
      simp only [Option.getD_none, Text.signedNumber?_of_notMem noPlus]
      cases Text.number? sizeLimit sizes <;> rfl
  | some halves =>
      obtain ⟨lower, upper⟩ := halves
      have whole : sizes = lower ++ [':'] ++ upper := Text.eq_of_cut? cut
      have noPlusLower : '+' ∉ lower := by
        intro member
        exact noPlus (by simp [whole, member])
      have noPlusUpper : '+' ∉ upper := by
        intro member
        exact noPlus (by simp [whole, member])
      simp only [Option.getD_some, Text.signedNumber?_of_notMem noPlusLower,
        Text.signedNumber?_of_notMem noPlusUpper]
      cases Text.number? sizeLimit lower with
      | none => rfl
      | some sizeMin => cases Text.number? sizeLimit upper <;> rfl

/-- Every class of digits gives a pattern that takes a line for the same. -/
theorem scans_iff {result : Except FormatError Primitive} :
    Scans digit line result ↔ ofHeader line = result := by
  constructor
  · intro scans
    cases scans with
    | matched captures => exact captures.ofGroups_eq.symm
    | unmatched uncaptured => exact ofHeader_of_uncaptured uncaptured
  · rintro rfl
    by_cases matched : ∃ label sizes, Captures digit line label sizes
    · obtain ⟨label, sizes, captures⟩ := matched
      exact captures.ofGroups_eq ▸ .matched captures
    · have uncaptured : ∀ label sizes, ¬Captures digit line label sizes :=
        fun label sizes captures => matched ⟨label, sizes, captures⟩
      exact ofHeader_of_uncaptured uncaptured ▸ .unmatched uncaptured

end Classes

/--
A line is a header exactly in one of its two forms, with one label and one pair of sizes.
Inverted sizes are told apart from all other faults, the written header is read again, and a
pattern with any other digits besides the ASCII ones changes nothing.
-/
theorem heading_decided (line : Text) :
    (∀ result, ofHeader line = result ↔ Heading line result) ∧
      (∀ label min max otherLabel otherMin otherMax, Heads line label min max →
        Heads line otherLabel otherMin otherMax →
          label = otherLabel ∧ min = otherMin ∧ max = otherMax) ∧
        (∀ primitive, ofHeader line = .ok primitive →
          ofHeader primitive.headerText = .ok primitive) ∧
          ∀ digit result, Scans digit line result ↔ ofHeader line = result := by
  refine ⟨fun result => ofHeader_eq_iff, ?_, ?_, fun digit result => scans_iff⟩
  · intro label min max otherLabel otherMin otherMax heads others
    exact heads.unique others
  · intro primitive read
    exact ofHeader_headerText_of_ofHeader read

/-- The digits of ASCII and those of Arabic. -/
def arabicDigits : DigitClass where
  contains char := char.isDigit || (0x660 ≤ char.toNat && char.toNat ≤ 0x669)
  ascii char isDigit := by simp [isDigit]
  noPlus := by decide

/-- An Arabic three is matched as a size and still no number. -/
theorem arabic_size_malformed :
    let line := "AGE:= \x7bSize=1:\u0663\x7d".toList
    Captures arabicDigits line "AGE".toList "1:\u0663".toList ∧
      Heading line (.error (.header .primitive line)) ∧
        Scans arabicDigits line (.error (.header .primitive line)) := by
  intro line
  have read : ofHeader line = .error (.header .primitive line) := by decide +kernel
  obtain ⟨decided, -, -, scanned⟩ := heading_decided line
  refine ⟨⟨isLabel_iff.mpr (by decide), rfl, .inr ?_⟩, (decided _).mp read,
    (scanned arabicDigits _).mpr read⟩
  exact ⟨['1'], ['\u0663'], rfl, ⟨by decide, List.forall_mem_singleton.mpr rfl⟩,
    ⟨by decide, List.forall_mem_singleton.mpr rfl⟩⟩

/-- A label may end in a colon, and zeros may lead. -/
example :
    ofHeader "AGE::= \x7bSize=007\x7d".toList =
      .ok { label := "AGE:".toList, sizeMin := 7, sizeMax := 7 } := by
  decide +kernel

end Primitive

end GedcomGrammar
