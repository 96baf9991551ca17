/-
This file defines regular expressions, as far as patterns are written with them.
-/

import GedcomGrammar.Text

namespace GedcomGrammar

/-- A regular expression, in which groups only show in how the others nest. -/
inductive Regex where
  | empty
  | single (char : Char)
  | set (negated : Bool) (ranges : List (Char × Char))
  | start
  | finish
  | sequence (first second : Regex)
  | either (first second : Regex)
  | repeated (body : Regex) (least most : Nat)
  deriving DecidableEq

namespace Regex

/-- These characters have a meaning of their own, unless a backslash stands before them. -/
def isMeta (char : Char) : Bool :=
  ['\\', '.', '+', '*', '?', '(', ')', '|', '[', ']', '{', '}', '^', '$', '#', '&', '-',
    '~'].contains char

/-- A set holds the characters of its ranges, or all others when it is negated. -/
def holds (negated : Bool) (ranges : List (Char × Char)) (char : Char) : Bool :=
  (ranges.any fun range => range.1 ≤ char && char ≤ range.2) != negated

/-- A way to match a part of a text, which depends on the text before and after the part. -/
abbrev Match := Text → Text → Text → Prop

/-- A part is cut into as many neighbours, each of which is matched. -/
def Times (one : Match) : Nat → Match
  | 0, _, middle, _ => middle = []
  | count + 1, before, middle, after =>
      ∃ left right, middle = left ++ right ∧ one before left (right ++ after) ∧
        Times one count (before ++ left) right after

/-- The parts of a text that a regular expression spans, given the text before and after. -/
def Spans : Regex → Match
  | .empty, _, middle, _ => middle = []
  | .single char, _, middle, _ => middle = [char]
  | .set negated ranges, _, middle, _ =>
      ∃ char, middle = [char] ∧ holds negated ranges char = true
  | .start, before, middle, _ => middle = [] ∧ before = []
  | .finish, _, middle, after => middle = [] ∧ after = []
  | .sequence first second, before, middle, after =>
      ∃ left right, middle = left ++ right ∧ first.Spans before left (right ++ after) ∧
        second.Spans (before ++ left) right after
  | .either first second, before, middle, after =>
      first.Spans before middle after ∨ second.Spans before middle after
  | .repeated body least most, before, middle, after =>
      ∃ count, least ≤ count ∧ count ≤ most ∧ Times body.Spans count before middle after

/-- A text is matched as a whole. -/
def Matches (regex : Regex) (value : Text) : Prop :=
  regex.Spans [] value []

end Regex

end GedcomGrammar
