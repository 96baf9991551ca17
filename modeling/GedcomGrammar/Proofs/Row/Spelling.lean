/-
This file proves which texts are read as levels and counts, and that written ones are read back.
-/

import GedcomGrammar.Proofs.Primitive.Heading
import GedcomGrammar.Proofs.Row.Marks
import GedcomGrammar.Row.Spelling

namespace GedcomGrammar

namespace Text

variable {text : Text}

/-- One plus sign may stand in front of the digits of a number. -/
theorem signedNumber?_eq_some_iff {limit number : Nat} :
    signedNumber? limit text = some number ↔
      (∃ digits : Text, (text = digits ∨ text = '+' :: digits) ∧ digits.Writes number) ∧
        number < limit := by
  unfold signedNumber?
  split
  · rename_i digits
    rw [number?_eq_some_iff]
    constructor
    · rintro ⟨written, small⟩
      exact ⟨⟨digits, .inr rfl, written⟩, small⟩
    · rintro ⟨⟨others, rfl | same, written⟩, small⟩
      · exact absurd (written.isDigit '+' List.mem_cons_self) (by decide)
      · rw [(List.cons.inj same).2]
        exact ⟨written, small⟩
  · rename_i unsigned
    rw [number?_eq_some_iff]
    constructor
    · rintro ⟨written, small⟩
      exact ⟨⟨text, .inl rfl, written⟩, small⟩
    · rintro ⟨⟨digits, rfl | signed, written⟩, small⟩
      · exact ⟨written, small⟩
      · exact absurd signed (unsigned digits)

theorem word?_eq_some_iff {number : UInt32} :
    word? text = some number ↔ text.WritesWord number := by
  simp only [word?, Option.map_eq_some_iff, signedNumber?_eq_some_iff]
  constructor
  · rintro ⟨value, ⟨written, small⟩, rfl⟩
    rwa [WritesWord, UInt32.toNat_ofNat_of_lt' small]
  · intro written
    exact ⟨number.toNat, ⟨written, number.toNat_lt⟩, UInt32.ofNat_toNat⟩

/-- A reader of exactly the spellings makes any writer that it reads back canonical. -/
theorem Canonical.of_reads {Value : Type} {Spells : Text → Value → Prop}
    {read : Text → Except FormatError Value} {fault : Text → FormatError} {write : Value → Text}
    (reads : ∀ text value, read text = .ok value ↔ Spells text value)
    (faults : ∀ text error, read text = .error error → error = fault text)
    (rereads : ∀ value, read (write value) = .ok value) :
    Canonical Spells read fault write where
  reads := reads
  refuses text error := by
    constructor
    · intro refused
      refine ⟨fun value spelled => ?_, faults text error refused⟩
      exact absurd (refused.symm.trans ((reads text value).mpr spelled)) (by simp)
    · rintro ⟨unspelled, rfl⟩
      cases result : read text with
      | ok value => exact absurd ((reads text value).mp result) (unspelled value)
      | error error => rw [faults text error result]
  rereads := rereads
  sameText := by
    intro first second value other readFirst readSecond
    constructor
    · intro same
      -- Equal written forms are read back as one value.
      have sameValue : value = other := by
        have again := rereads value
        rw [same, rereads other] at again
        exact (Except.ok.inj again).symm
      rw [← sameValue] at readSecond
      exact ⟨value, (reads _ _).mp readFirst, (reads _ _).mp readSecond⟩
    · rintro ⟨common, spellsFirst, spellsSecond⟩
      have left := readFirst.symm.trans ((reads _ _).mpr spellsFirst)
      have right := readSecond.symm.trans ((reads _ _).mpr spellsSecond)
      rw [Except.ok.inj left, Except.ok.inj right]

end Text

namespace Level

theorem ofText_eq_ok_iff {text : Text} {level : Level} :
    ofText text = .ok level ↔ Spells text level := by
  constructor
  · intro read
    unfold ofText at read
    split at read
    · exact Except.ok.inj read ▸ .root
    · exact Except.ok.inj read ▸ .here
    · split at read
      · rename_i depth found
        exact Except.ok.inj read ▸ .below (Text.word?_eq_some_iff.mp found)
      · exact absurd read (by simp)
    · exact absurd read (by simp)
  · intro spelled
    cases spelled with
    | root => rfl
    | here => rfl
    | below written => rw [ofText, Text.word?_eq_some_iff.mpr written]

end Level

namespace Count

theorem ofText_eq_ok_iff {text : Text} {count : Count} :
    ofText text = .ok count ↔ Spells text count := by
  constructor
  · intro read
    unfold ofText at read
    split at read
    · rename_i unlimited
      exact Except.ok.inj read ▸ unlimited ▸ .unlimited
    · split at read
      · rename_i number found
        exact Except.ok.inj read ▸ .finite (Text.word?_eq_some_iff.mp found)
      · exact absurd read (by simp)
  · intro spelled
    cases spelled with
    | unlimited => rfl
    | finite written =>
        have other : text ≠ ['M'] := by
          rintro rfl
          have none : Text.word? ['M'] = none := by decide
          exact absurd (none.symm.trans (Text.word?_eq_some_iff.mpr written)) (by simp)
        rw [ofText, if_neg other, Text.word?_eq_some_iff.mpr written]

theorem eq_count_of_ofText {text : Text} {error : FormatError}
    (refused : ofText text = .error error) : error = .count text := by
  unfold ofText at refused
  split at refused
  · exact absurd refused (by simp)
  · split at refused
    · exact absurd refused (by simp)
    · exact (Except.error.inj refused).symm

/-- A number comes no later than a bound that is at least as great. -/
theorem order_ne_gt_iff {count : UInt32} {bound : Count} :
    (Count.finite count).order bound ≠ .gt ↔ ∀ number, bound = .finite number → count ≤ number := by
  cases bound with
  | unlimited => simp [order]
  | finite number =>
      simp only [order, Count.finite.injEq, forall_eq']
      exact Std.LawfulLECmp.ne_gt_iff_le

end Count

theorem Occurrence.accepts_iff {occurrence : Occurrence} {count : UInt32} :
    occurrence.accepts count = true ↔ occurrence.min ≤ count ∧
      ∀ number, occurrence.max = .finite number → count ≤ number := by
  rw [accepts, Bool.and_eq_true, decide_eq_true_iff, bne_iff_ne, Count.order_ne_gt_iff]

namespace Row

/-- The range stands behind the last space of a written row. -/
theorem getLast?_splitOn_text (row : Row) :
    (row.text.splitOn ' ').getLast? = some row.occurrence.text := by
  have noSpace : ' ' ∉ row.occurrence.text := Occurrence.notMem_text (by decide) (by decide) _
  have whole : row.text =
      Text.joinWith [' '] (row.level.text :: row.body.items row.prefixed) ++
        ' ' :: row.occurrence.text := by
    rw [text, Text.joinWith_concat _ (List.cons_ne_nil _ _)]
    simp
  rw [whole, List.splitOn_append_cons_self, List.splitOn_eq_singleton noSpace]
  exact List.getLast?_concat

theorem recounts (row : Row) : row.Recounts row.occurrence.text row.occurrence where
  last := row.getLast?_splitOn_text
  braced := by simp [Occurrence.text]
  reads := Occurrence.ofText_text row.occurrence
  min := rfl
  max := rfl
  accepts _ := rfl
  within _ := Occurrence.accepts_iff

end Row

/--
Levels and counts are read from exactly their spellings and written in one of them, so that two
texts spell the same if and only if they are written back alike. The range of a written row is
read from its last item.
-/
theorem canonical_levels_and_counts :
    Text.Canonical Level.Spells Level.ofText .level Level.text ∧
      Text.Canonical Count.Spells Count.ofText .count Count.text ∧
        ∀ row : Row, ∃ item read, row.Recounts item read := by
  refine ⟨.of_reads ?_ ?_ ?_, .of_reads ?_ ?_ ?_, fun row => ⟨_, _, row.recounts⟩⟩
  · exact fun _ _ => Level.ofText_eq_ok_iff
  · exact fun _ _ => Row.eq_level_of_ofText
  · exact Level.ofText_text
  · exact fun _ _ => Count.ofText_eq_ok_iff
  · exact fun _ _ => Count.eq_count_of_ofText
  · exact Count.ofText_text

/-- A second plus sign and zeros in front are read and not written. -/
example :
    Level.ofText "++007".toList = .ok (.relative 7) ∧ (Level.relative 7).text = "+7".toList := by
  decide +kernel

end GedcomGrammar
