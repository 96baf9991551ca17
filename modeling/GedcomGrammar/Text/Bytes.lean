/-
This file counts places in a text by the bytes before them, and cuts the text there.
-/

import GedcomGrammar.Text

namespace GedcomGrammar.Text

/-- A byte is beyond the end of a text, or inside one of its characters. -/
structure Misplaced where
  byte : Nat
  text : Text
  deriving DecidableEq

/-- What cuts of texts give, or the first cut at a misplaced byte. -/
abbrev Sliced := Except Misplaced

/-- The text before a byte and the text from there on, if a character begins there. -/
def halves? (byte : Nat) (text : Text) : Option (Text × Text) :=
  if byte = 0 then some ([], text)
  else
    match text with
    | [] => none
    | head :: rest =>
        if head.utf8Size ≤ byte then
          (halves? (byte - head.utf8Size) rest).map fun halves => (head :: halves.1, halves.2)
        else none

def slice (byte : Nat) (text : Text) : Sliced (Text × Text) :=
  match halves? byte text with
  | none => .error ⟨byte, text⟩
  | some halves => .ok halves

/-- The byte at which the first character of a class begins. -/
def byteOf? (wanted : Char → Bool) : Text → Option Nat
  | [] => none
  | head :: rest =>
      if wanted head then some 0 else (byteOf? wanted rest).map fun byte => head.utf8Size + byte

variable {front rest text : Text}

@[simp] theorem utf8Length_nil : utf8Length [] = 0 :=
  rfl

@[simp] theorem utf8Length_cons (head : Char) (rest : Text) :
    utf8Length (head :: rest) = head.utf8Size + utf8Length rest :=
  rfl

@[simp] theorem utf8Length_append (front back : Text) :
    utf8Length (front ++ back) = utf8Length front + utf8Length back := by
  induction front with
  | nil => rw [List.nil_append, utf8Length_nil, Nat.zero_add]
  | cons head rest inductionHypothesis =>
      rw [List.cons_append, utf8Length_cons, utf8Length_cons, inductionHypothesis, Nat.add_assoc]

theorem utf8Length_eq_zero_iff : utf8Length text = 0 ↔ text = [] := by
  cases text with
  | nil => simp
  | cons head rest =>
      have positive := head.utf8Size_pos
      simp only [utf8Length_cons, reduceCtorEq, iff_false]
      omega

theorem halves?_zero_iff :
    halves? 0 text = some (front, rest) ↔ text = front ++ rest ∧ utf8Length front = 0 := by
  have start : halves? 0 text = some ([], text) := by cases text <;> rfl
  rw [start, Option.some.injEq, Prod.mk.injEq, utf8Length_eq_zero_iff]
  constructor
  · rintro ⟨rfl, rfl⟩
    exact ⟨rfl, rfl⟩
  · rintro ⟨joined, rfl⟩
    exact ⟨rfl, joined⟩

/-- A front part that takes bytes begins with the first character. -/
theorem cons_eq_append_iff {head : Char} {later : Text} {byte : Nat} (nonzero : byte ≠ 0) :
    head :: later = front ++ rest ∧ utf8Length front = byte ↔
      ∃ before, front = head :: before ∧ later = before ++ rest ∧
        head.utf8Size + utf8Length before = byte := by
  cases front with
  | nil => exact iff_of_false (fun both => nonzero both.2.symm) (by simp)
  | cons first others =>
      rw [List.cons_append, List.cons.injEq, utf8Length_cons]
      constructor
      · rintro ⟨⟨rfl, rfl⟩, same⟩
        exact ⟨others, rfl, rfl, same⟩
      · rintro ⟨before, split, rfl, same⟩
        obtain ⟨rfl, rfl⟩ := List.cons.inj split
        exact ⟨⟨rfl, rfl⟩, same⟩

/-- A text is cut after any of its front parts, at the byte that this part's length gives. -/
theorem halves?_eq_some_iff {byte : Nat} :
    halves? byte text = some (front, rest) ↔ text = front ++ rest ∧ utf8Length front = byte := by
  induction text generalizing byte front rest with
  | nil =>
      by_cases zero : byte = 0
      · rw [zero, halves?_zero_iff]
      · rw [halves?, if_neg zero]
        refine iff_of_false (by simp) ?_
        rintro ⟨joined, same⟩
        obtain ⟨rfl, -⟩ := List.nil_eq_append_iff.mp joined
        exact zero same.symm
  | cons head later inductionHypothesis =>
      by_cases zero : byte = 0
      · rw [zero, halves?_zero_iff]
      · rw [halves?, if_neg zero, cons_eq_append_iff zero]
        by_cases within : head.utf8Size ≤ byte
        · simp only [if_pos within, Option.map_eq_some_iff, Prod.exists, Prod.mk.injEq,
            inductionHypothesis]
          constructor
          · rintro ⟨before, after, ⟨joined, same⟩, rfl, rfl⟩
            exact ⟨before, rfl, joined, by omega⟩
          · rintro ⟨before, rfl, joined, same⟩
            exact ⟨before, rest, ⟨joined, by omega⟩, rfl, rfl⟩
        · rw [if_neg within]
          refine iff_of_false (by simp) ?_
          rintro ⟨before, -, -, same⟩
          omega

theorem slice_eq_ok_iff {byte : Nat} :
    slice byte text = .ok (front, rest) ↔ text = front ++ rest ∧ utf8Length front = byte := by
  rw [← halves?_eq_some_iff, slice]
  cases halves? byte text <;> simp

/-- A text can be cut before the first character that is not in a class. -/
theorem slice_takeWhile (kept : Char → Bool) (text : Text) :
    slice (utf8Length (text.takeWhile kept)) text =
      .ok (text.takeWhile kept, text.dropWhile kept) :=
  slice_eq_ok_iff.mpr ⟨List.takeWhile_append_dropWhile.symm, rfl⟩

/-- The first character of a class stands after the longest front part without any. -/
theorem byteOf?_eq (wanted : Char → Bool) (text : Text) :
    byteOf? wanted text =
      if text.dropWhile (fun char => !wanted char) = [] then none
      else some (utf8Length (text.takeWhile fun char => !wanted char)) := by
  induction text with
  | nil => rfl
  | cons head rest inductionHypothesis =>
      rw [byteOf?]
      split
      · rename_i found
        simp [found]
      · rename_i missing
        rw [inductionHypothesis]
        simp only [List.dropWhile_cons, List.takeWhile_cons, missing]
        split <;> simp_all

end GedcomGrammar.Text
