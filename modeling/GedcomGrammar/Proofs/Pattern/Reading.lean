/-
This file proves which regular expression the text of a pattern is read as.
-/

import GedcomGrammar.Pattern
import GedcomGrammar.Proofs.Regex.Reading

namespace GedcomGrammar

/-- One unit of a text value: a plain character, or an at sign that is doubled. -/
def Leaf.textUnit : Regex :=
  Regex.anyOf (Regex.concat [.single '@', .single '@'])
    [Regex.concat [.set true [('\x00', '\x1f'), ('\x7f', '\x7f'), ('@', '@')]]]

def Leaf.digitUnit : Regex :=
  .set false [('0', '9')]

namespace Pattern

open Regex (Frame resume)

/-- The item that a leaf is read as, unless it is read as nothing. -/
def leafItem? (bound : Nat) : Leaf → Option Regex
  | .text => some (.repeated Leaf.textUnit 1 (room bound))
  | .number => some (.repeated Leaf.digitUnit 1 (room bound))
  | .digit => some Leaf.digitUnit
  | .null => none

/-- The open group once a literal is read. -/
def readLiteral (spelling : Text) (frame : Frame) : Frame :=
  spelling.foldl (fun frame char => frame.push (.single char)) frame

/-- The open group once a pattern is read. -/
def read : Pattern → Frame → Frame
  | .literal spelling, frame => readLiteral spelling frame
  | .leaf kind bound, frame => ((leafItem? bound kind).map frame.push).getD frame
  | .sequence first second, frame => second.read (first.read frame)
  | .choice first second, frame => second.read (first.read frame).next
  | .group body, frame => frame.push (body.read {}).regex

variable {frame : Frame} {outer : List Frame}

/-- An escaped literal is read as its characters. -/
theorem resume_escaped (spelling rest : Text) :
    resume frame outer (escaped spelling ++ rest) =
      resume (readLiteral spelling frame) outer rest := by
  induction spelling generalizing frame with
  | nil => rfl
  | cons char later inductionHypothesis =>
      have split : escaped (char :: later) =
          (if Regex.isMeta char then ['\\', char] else [char]) ++ escaped later :=
        List.flatMap_cons
      rw [split, List.append_assoc]
      change _ = resume (readLiteral later (frame.push (.single char))) outer rest
      rw [← inductionHypothesis]
      by_cases special : Regex.isMeta char = true
      · rw [if_pos special]
        exact Regex.resume_item (Regex.token?_escaped special _)
      · rw [if_neg special]
        exact Regex.resume_item (Regex.token?_of_plain (by simpa using special) _)

/-- A repetition is read from one up to the room under the bound. -/
theorem resume_repetition (item : Regex) (bound : Nat) (rest : Text) :
    resume (frame.push item) outer (repetition bound ++ rest) =
      resume (frame.push (.repeated item 1 (room bound))) outer rest := by
  have token : Regex.token? '{' (['1', ','] ++ (Text.decimal (room bound) ++ '}' :: rest)) =
      some (.bounds 1 (room bound), rest) :=
    Regex.bounds?_decimal 1 (room bound) rest
  have written : repetition bound ++ rest =
      '{' :: (['1', ','] ++ (Text.decimal (room bound) ++ '}' :: rest)) := by
    simp [repetition]
  rw [written]
  exact Regex.resume_bounds token (Nat.le_max_right bound 1)

/-- Digits are written as a set of one range. -/
theorem resume_digitUnit (rest : Text) :
    resume frame outer (digitUnit ++ rest) =
      resume (frame.push Leaf.digitUnit) outer rest := by
  have ranges : Regex.ranges? ("0-9]".toList ++ rest) = some ([('0', '9')], rest) :=
    Regex.ranges?_last rfl
  refine @Regex.resume_item _ _ '[' ("0-9]".toList ++ rest) rest _ ?_
  exact congrArg (Option.map _) ranges

/-- Characters of a text value are written as a negated set of three ranges. -/
theorem resume_textSet (rest : Text) :
    resume frame outer ("[^\\x00-\\x1F\\x7F@]".toList ++ rest) =
      resume (frame.push (.set true [('\x00', '\x1f'), ('\x7f', '\x7f'), ('@', '@')])) outer
        rest := by
  have last : Regex.ranges? ("@]".toList ++ rest) = some ([('@', '@')], rest) :=
    Regex.ranges?_last rfl
  have two : Regex.ranges? ("\\x7F@]".toList ++ rest) =
      some ([('\x7f', '\x7f'), ('@', '@')], rest) := by
    rw [@Regex.ranges?_cons ("@]".toList ++ rest) _ ('\x7f', '\x7f') rfl (by simp), last]
    rfl
  have three : Regex.ranges? ("\\x00-\\x1F\\x7F@]".toList ++ rest) =
      some ([('\x00', '\x1f'), ('\x7f', '\x7f'), ('@', '@')], rest) := by
    rw [@Regex.ranges?_cons ("\\x7F@]".toList ++ rest) _ ('\x00', '\x1f') rfl (by simp), two]
    rfl
  refine @Regex.resume_item _ _ '[' ("^\\x00-\\x1F\\x7F@]".toList ++ rest) rest _ ?_
  exact congrArg (Option.map _) three

theorem resume_textUnit (rest : Text) :
    resume frame outer (textUnit ++ rest) =
      resume (frame.push Leaf.textUnit) outer rest := by
  have opening : Regex.token? '(' ("?:[^\\x00-\\x1F\\x7F@]|@@)".toList ++ rest) =
      some (.opening, "[^\\x00-\\x1F\\x7F@]".toList ++ ("|@@)".toList ++ rest)) :=
    rfl
  have sign (rest : Text) : Regex.token? '@' rest = some (.item (.single '@'), rest) :=
    Regex.token?_of_plain (by decide) rest
  calc
    _ = resume {} (frame :: outer)
          ("[^\\x00-\\x1F\\x7F@]".toList ++ ("|@@)".toList ++ rest)) :=
      Regex.resume_opening opening
    _ = resume _ (frame :: outer) ('|' :: '@' :: '@' :: ')' :: rest) := resume_textSet _
    _ = resume _ (frame :: outer) ('@' :: '@' :: ')' :: rest) := Regex.resume_bar _
    _ = resume _ (frame :: outer) ('@' :: ')' :: rest) := Regex.resume_item (sign _)
    _ = resume _ (frame :: outer) (')' :: rest) := Regex.resume_item (sign _)
    _ = resume (frame.push Leaf.textUnit) outer rest := Regex.resume_closing rest

/-- A leaf is read as its item. -/
theorem resume_leafText (bound : Nat) (kind : Leaf) (rest : Text) :
    resume frame outer (leafText bound kind ++ rest) =
      resume ((Pattern.leaf kind bound).read frame) outer rest := by
  cases kind with
  | text =>
      rw [leafText, List.append_assoc, resume_textUnit, resume_repetition]
      rfl
  | number =>
      rw [leafText, List.append_assoc, resume_digitUnit, resume_repetition]
      rfl
  | digit => exact resume_digitUnit rest
  | null => rfl

/-- A pattern never makes an opening parenthesis mean something else. -/
theorem head?_text_append (pattern : Pattern) {rest : Text} (plain : rest.head? ≠ some '?') :
    (pattern.text ++ rest).head? ≠ some '?' := by
  induction pattern generalizing rest with
  | literal spelling =>
      cases spelling with
      | nil => exact plain
      | cons char later =>
          rw [text, escaped, List.flatMap_cons]
          split
          · simp
          · rename_i ordinary
            intro same
            have question : char = '?' := by simpa using same
            exact ordinary (question ▸ by decide)
  | leaf kind bound =>
      cases kind with
      | null => exact plain
      | text => exact show some '(' ≠ some '?' by decide
      | number => exact show some '[' ≠ some '?' by decide
      | digit => exact show some '[' ≠ some '?' by decide
  | sequence first second inductionFirst inductionSecond =>
      rw [text, List.append_assoc]
      exact inductionFirst (inductionSecond plain)
  | choice first second inductionFirst inductionSecond =>
      rw [text, List.append_assoc]
      exact inductionFirst (by simp)
  | group body inductionBody => simp [text]

/-- The text of a pattern is read as the pattern. -/
theorem resume_text (pattern : Pattern) (rest : Text) :
    resume frame outer (pattern.text ++ rest) = resume (pattern.read frame) outer rest := by
  induction pattern generalizing frame outer rest with
  | literal spelling => exact resume_escaped spelling rest
  | leaf kind bound => exact resume_leafText bound kind rest
  | sequence first second inductionFirst inductionSecond =>
      rw [text, List.append_assoc, inductionFirst, inductionSecond]
      rfl
  | choice first second inductionFirst inductionSecond =>
      rw [text, List.append_assoc, inductionFirst, List.cons_append, Regex.resume_bar,
        inductionSecond]
      rfl
  | group body inductionBody =>
      have opening := Regex.token?_opening (@head?_text_append body (')' :: rest) (by simp))
      have written : (Pattern.group body).text ++ rest = '(' :: (body.text ++ ')' :: rest) := by
        simp [text]
      rw [written, Regex.resume_opening opening, inductionBody, Regex.resume_closing]
      rfl

/-- The written form of a pattern is a regular expression, anchored at both ends. -/
theorem ofText?_anchoredText (pattern : Pattern) :
    Regex.ofText? pattern.anchoredText =
      some (Regex.concat [.finish, (pattern.read {}).regex, .start]) := by
  have opening : Regex.token? '(' ("?:".toList ++ (pattern.text ++ ")$".toList)) =
      some (.opening, pattern.text ++ ")$".toList) :=
    rfl
  calc
    _ = resume {} [] ('^' :: '(' :: ("?:".toList ++ (pattern.text ++ ")$".toList))) := by
      simp [Regex.ofText?, resume, anchoredText]
    _ = resume _ [] ('(' :: ("?:".toList ++ (pattern.text ++ ")$".toList))) :=
      Regex.resume_item rfl
    _ = resume {} [_] (pattern.text ++ [')', '$']) := Regex.resume_opening opening
    _ = resume (pattern.read {}) [_] [')', '$'] := pattern.resume_text _
    _ = resume _ [] ['$'] := Regex.resume_closing _
    _ = resume _ [] [] := Regex.resume_item rfl
    _ = some (Regex.concat [.finish, (pattern.read {}).regex, .start]) := Regex.resume_nil

end Pattern

end GedcomGrammar
