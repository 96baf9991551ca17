/-
This file proves how a regular expression is read piece by piece.
-/

import GedcomGrammar.Proofs.Text.Decimals
import GedcomGrammar.Regex.Reader

namespace GedcomGrammar.Regex

/-- The text that is left is read in a group that is open within others. -/
def resume (frame : Frame) (outer : List Frame) (text : Text) : Option Regex :=
  (tokens? text).bind (parse? frame outer)

theorem resume_nil {frame : Frame} : resume frame [] [] = some frame.regex := by
  rw [resume, tokens?]
  rfl

section Tokens

variable {frame : Frame} {outer : List Frame} {char : Char} {rest after : Text}

theorem tokens?_of_token? {token : Token} (found : token? char rest = some (token, after)) :
    tokens? (char :: rest) = (tokens? after).map (token :: ·) := by
  rw [tokens?]
  split
  · rename_i missing
    exact absurd (missing.symm.trans found) (by simp)
  · rename_i step
    obtain ⟨rfl, rfl⟩ := Prod.mk.inj (Option.some.inj (step.symm.trans found))
    rfl

theorem resume_of_token? {token : Token} (found : token? char rest = some (token, after)) :
    resume frame outer (char :: rest) =
      (tokens? after).bind fun tokens => parse? frame outer (token :: tokens) := by
  rw [resume, tokens?_of_token? found, Option.bind_map]
  rfl

theorem resume_item {item : Regex} (found : token? char rest = some (.item item, after)) :
    resume frame outer (char :: rest) = resume (frame.push item) outer after :=
  resume_of_token? found

theorem resume_opening (found : token? char rest = some (.opening, after)) :
    resume frame outer (char :: rest) = resume {} (frame :: outer) after :=
  resume_of_token? found

theorem resume_closing {next : Frame} (rest : Text) :
    resume frame (next :: outer) (')' :: rest) = resume (next.push frame.regex) outer rest :=
  @resume_of_token? frame (next :: outer) ')' rest rest .closing rfl

theorem resume_bar (rest : Text) :
    resume frame outer ('|' :: rest) = resume frame.next outer rest :=
  @resume_of_token? frame outer '|' rest rest .bar rfl

/-- A repetition takes the latest item. -/
theorem resume_bounds {item : Regex} {least most : Nat}
    (found : token? char rest = some (.bounds least most, after)) (ordered : least ≤ most) :
    resume (frame.push item) outer (char :: rest) =
      resume (frame.push (.repeated item least most)) outer after := by
  rw [resume_of_token? found]
  simp only [parse?, Frame.push, if_pos ordered]
  rfl

/-- A character without a meaning of its own stands for itself. -/
theorem token?_of_plain (plain : isMeta char = false) (rest : Text) :
    token? char rest = some (.item (.single char), rest) := by
  unfold token?
  split <;> first | rfl | exact absurd plain (by decide)

theorem token?_escaped (special : isMeta char = true) (rest : Text) :
    token? '\\' (char :: rest) = some (.item (.single char), rest) := by
  have escaped : escape? (char :: rest) = some (char, rest) := by
    unfold escape?
    split
    · rename_i same
      obtain ⟨rfl, -⟩ := List.cons.inj same
      exact absurd special (by decide)
    · rename_i same
      obtain ⟨rfl, rfl⟩ := List.cons.inj same
      exact if_pos special
    · rename_i same
      exact absurd same (by simp)
  simp only [token?, escaped, Option.map_some]

/-- Only a question mark and a colon belong to an opening parenthesis. -/
theorem token?_opening (plain : rest.head? ≠ some '?') :
    token? '(' rest = some (.opening, rest) := by
  simp only [token?]
  split
  · exact absurd rfl plain
  · rfl

theorem ranges?_last {text : Text} {range : Char × Char}
    (found : range? text = some (range, ']' :: rest)) : ranges? text = some ([range], rest) := by
  rw [ranges?]
  split
  · rename_i missing
    exact absurd (missing.symm.trans found) (by simp)
  · rename_i step
    obtain ⟨rfl, same⟩ := Prod.mk.inj (Option.some.inj (step.symm.trans found))
    rw [(List.cons.inj same).2]
  · rename_i continues step
    obtain ⟨rfl, same⟩ := Prod.mk.inj (Option.some.inj (step.symm.trans found))
    exact absurd same (continues _)

theorem ranges?_cons {text : Text} {range : Char × Char}
    (found : range? text = some (range, rest)) (continues : rest.head? ≠ some ']') :
    ranges? text = (ranges? rest).map fun ranges => (range :: ranges.1, ranges.2) := by
  rw [ranges?]
  split
  · rename_i missing
    exact absurd (missing.symm.trans found) (by simp)
  · rename_i step
    obtain ⟨rfl, rfl⟩ := Prod.mk.inj (Option.some.inj (step.symm.trans found))
    exact absurd rfl continues
  · rename_i step
    obtain ⟨rfl, rfl⟩ := Prod.mk.inj (Option.some.inj (step.symm.trans found))
    rfl

/-- Digits are read up to the next other character. -/
theorem digits_decimal (number : Nat) (other : char.isDigit = false) (rest : Text) :
    (Text.decimal number ++ char :: rest).takeWhile Char.isDigit = Text.decimal number ∧
      (Text.decimal number ++ char :: rest).dropWhile Char.isDigit = char :: rest := by
  have digits (digit : Char) (member : digit ∈ Text.decimal number) : digit.isDigit = true :=
    Text.isDigit_of_mem_decimal member
  have stops : ¬char.isDigit = true := by simp [other]
  constructor
  · rw [List.takeWhile_append_of_pos digits, List.takeWhile_cons_of_neg stops, List.append_nil]
  · rw [List.dropWhile_append_of_pos digits, List.dropWhile_cons_of_neg stops]

/-- Written numbers are read as bounds. -/
theorem bounds?_decimal (least most : Nat) (rest : Text) :
    bounds? (Text.decimal least ++ ',' :: (Text.decimal most ++ '}' :: rest)) =
      some (.bounds least most, rest) := by
  have value (number : Nat) : Nat.ofDigitChars 10 (Text.decimal number) 0 = number :=
    Nat.ofDigitChars_ten_toDigits
  obtain ⟨first, afterFirst⟩ :=
    @digits_decimal ',' least (by decide) (Text.decimal most ++ '}' :: rest)
  obtain ⟨second, afterSecond⟩ := @digits_decimal '}' most (by decide) rest
  simp only [bounds?, first, afterFirst, second, afterSecond, value]
  exact if_pos ⟨Text.decimal_ne_nil least, Text.decimal_ne_nil most⟩

end Tokens

end GedcomGrammar.Regex
