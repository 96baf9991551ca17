/-
This file proves that written numbers, levels and counts read back.
-/

import GedcomGrammar.Row.Level
import GedcomGrammar.Row.Occurrence
import GedcomGrammar.Proofs.Text.Cuts
import GedcomGrammar.Proofs.Text.Trimmed

namespace GedcomGrammar

namespace Text

theorem decimal_ne_nil (number : Nat) : decimal number ≠ [] :=
  Nat.toDigits_ne_nil

theorem isDigit_of_mem_decimal {number : Nat} {char : Char} (member : char ∈ decimal number) :
    char.isDigit = true :=
  Nat.isDigit_of_mem_toDigits (by decide) (by decide) member

/-- A character that is no digit stands in no written number. -/
theorem notMem_decimal {char : Char} (other : char.isDigit = false) (number : Nat) :
    char ∉ decimal number := by
  intro member
  rw [isDigit_of_mem_decimal member] at other
  exact Bool.noConfusion other

theorem number?_decimal {limit number : Nat} (small : number < limit) :
    number? limit (decimal number) = some number := by
  have value : Nat.ofDigitChars 10 (decimal number) 0 = number := Nat.ofDigitChars_ten_toDigits
  have digits : (decimal number).all Char.isDigit = true :=
    List.all_eq_true.mpr fun _ member => isDigit_of_mem_decimal member
  rw [number?, value, if_pos ⟨decimal_ne_nil number, digits, small⟩]

theorem signedNumber?_decimal {limit number : Nat} (small : number < limit) :
    signedNumber? limit (decimal number) = some number := by
  unfold signedNumber?
  split
  · rename_i digits signed
    have member : '+' ∈ decimal number := by simp [signed]
    exact absurd member (notMem_decimal (by decide) number)
  · exact number?_decimal small

@[simp] theorem word?_decimal (number : UInt32) :
    word? (decimal number.toNat) = some number := by
  rw [word?, signedNumber?_decimal number.toNat_lt, Option.map_some, UInt32.ofNat_toNat]

end Text

namespace Level

@[simp] theorem ofText_text (level : Level) : ofText level.text = .ok level := by
  cases level with
  | root => rfl
  | relative depth =>
      by_cases zero : depth = 0
      · rw [zero]
        rfl
      · rw [text, if_neg zero, ofText, Text.word?_decimal]

end Level

namespace Count

@[simp] theorem ofText_text (count : Count) : ofText count.text = .ok count := by
  cases count with
  | unlimited => rfl
  | finite number =>
      have other : Text.decimal number.toNat ≠ ['M'] := by
        intro same
        exact @Text.notMem_decimal 'M' (by decide) number.toNat (by simp [same])
      rw [text, ofText, if_neg other, Text.word?_decimal]

/-- A written count has digits and the unlimited mark only. -/
theorem mem_text {count : Count} {char : Char} (member : char ∈ count.text) :
    char.isDigit = true ∨ char = 'M' := by
  cases count with
  | unlimited => exact .inr (List.mem_singleton.mp member)
  | finite number => exact .inl (Text.isDigit_of_mem_decimal member)

end Count

namespace Occurrence

/-- The range without its braces. -/
def innerText (occurrence : Occurrence) : Text :=
  Text.decimal occurrence.min.toNat ++ ':' :: occurrence.max.text

theorem text_eq (occurrence : Occurrence) :
    occurrence.text = ['{'] ++ occurrence.innerText ++ ['}'] := by
  simp [text, innerText]

theorem mem_innerText {occurrence : Occurrence} {char : Char}
    (member : char ∈ occurrence.innerText) :
    char.isDigit = true ∨ char = ':' ∨ char = 'M' := by
  rcases List.mem_append.mp member with digit | rest
  · exact .inl (Text.isDigit_of_mem_decimal digit)
  · rcases List.mem_cons.mp rest with colon | last
    · exact .inr (.inl colon)
    · rcases Count.mem_text last with digit | unlimited
      · exact .inl digit
      · exact .inr (.inr unlimited)

/-- A character other than those of a range stands in no written occurrence. -/
theorem notMem_text {char : Char} (digit : char.isDigit = false)
    (other : char ∉ ['{', ':', 'M', '}']) (occurrence : Occurrence) :
    char ∉ occurrence.text := by
  intro member
  simp only [List.mem_cons, List.not_mem_nil, or_false, not_or] at other
  simp only [text_eq, List.mem_append, List.mem_singleton] at member
  rcases member with (opened | inner) | closed
  · exact other.1 opened
  · rcases mem_innerText inner with isDigit | colon | unlimited
    · rw [isDigit] at digit
      exact Bool.noConfusion digit
    · exact other.2.1 colon
    · exact other.2.2.1 unlimited
  · exact other.2.2.2 closed

theorem trimmed_innerText (occurrence : Occurrence) :
    Text.Trimmed (fun char => char == '{' || char == '}') occurrence.innerText := by
  have inside : ∀ char ∈ occurrence.innerText, (char == '{' || char == '}') = false := by
    intro char member
    rcases mem_innerText member with digit | rfl | rfl
    · rw [Bool.or_eq_false_iff, beq_eq_false_iff_ne, beq_eq_false_iff_ne]
      constructor <;> rintro rfl <;> exact absurd digit (by decide)
    · rfl
    · rfl
  exact ⟨fun char head => inside char (List.mem_of_mem_head? head),
    fun char last => inside char (List.mem_of_mem_getLast? last)⟩

@[simp] theorem ofText_text (occurrence : Occurrence) :
    ofText occurrence.text = .ok occurrence := by
  have inner : occurrence.text.trim (fun char => char == '{' || char == '}') =
      occurrence.innerText := by
    rw [text_eq]
    exact Text.trim_append _ _ occurrence.trimmed_innerText (by simp) (by simp)
  have parts : Text.cut? [':'] occurrence.innerText =
      some (Text.decimal occurrence.min.toNat, occurrence.max.text) :=
    Text.cut?_singleton_append _ (Text.notMem_decimal (by decide) _)
  simp only [ofText, inner, parts, Text.word?_decimal, Count.ofText_text]

end Occurrence

end GedcomGrammar
