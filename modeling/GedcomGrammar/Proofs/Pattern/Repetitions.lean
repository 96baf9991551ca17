/-
This file proves that the repetitions in the text of a pattern are those of its leaves.
-/

import GedcomGrammar.Proofs.Pattern.Spans
import GedcomGrammar.Regex.Repetition

namespace GedcomGrammar

namespace Regex

/-- Items are held latest first, and their repetitions stand in the order of the text. -/
theorem repetitions_concat (items : List Regex) :
    (concat items).repetitions = items.reverse.flatMap repetitions := by
  induction items with
  | nil => rfl
  | cons last items inductionHypothesis =>
      rw [concat, repetitions, inductionHypothesis, List.reverse_cons, List.flatMap_append,
        List.flatMap_singleton]

theorem repetitions_anyOf (last : Regex) (earlier : List Regex) :
    (anyOf last earlier).repetitions =
      earlier.reverse.flatMap repetitions ++ last.repetitions := by
  induction earlier generalizing last with
  | nil => rfl
  | cons previous earlier inductionHypothesis =>
      rw [anyOf, repetitions, inductionHypothesis, List.reverse_cons, List.flatMap_append,
        List.flatMap_singleton]

namespace Frame

/-- The repetitions in an open group. -/
def repetitions (frame : Frame) : List Repetition :=
  frame.complete.reverse.flatMap Regex.repetitions ++ frame.items.reverse.flatMap Regex.repetitions

theorem repetitions_regex (frame : Frame) : frame.regex.repetitions = frame.repetitions := by
  rw [regex, repetitions_anyOf, repetitions_concat, repetitions]

theorem repetitions_push (frame : Frame) (item : Regex) :
    (frame.push item).repetitions = frame.repetitions ++ item.repetitions := by
  simp only [repetitions, push, List.reverse_cons, List.flatMap_append, List.flatMap_singleton,
    List.append_assoc]

theorem repetitions_next (frame : Frame) : frame.next.repetitions = frame.repetitions := by
  simp only [repetitions, next, List.reverse_cons, List.flatMap_append, List.flatMap_singleton,
    repetitions_concat, List.reverse_nil, List.flatMap_nil, List.append_nil]

end Frame

end Regex

/-- The unit that a leaf repeats, if it repeats any. -/
def Leaf.unit? : Leaf → Option Regex
  | .text => some textUnit
  | .number => some digitUnit
  | .digit => none
  | .null => none

/-- A leaf repeats its unit once or as often as there is room for. -/
def Leaf.repetition? (leaf : Leaf) (bound : Nat) : Option Regex.Repetition :=
  leaf.unit?.map fun unit => ⟨unit, 1, max 1 bound⟩

namespace Pattern

/-- The leaves of a pattern with their bounds, in the order of its text. -/
def leaves : Pattern → List (Leaf × Nat)
  | .literal _ => []
  | .leaf kind bound => [(kind, bound)]
  | .sequence first second => first.leaves ++ second.leaves
  | .choice first second => first.leaves ++ second.leaves
  | .group body => body.leaves

theorem leaves_concat (patterns : List Pattern) :
    (concat patterns).leaves = patterns.flatMap leaves := by
  induction patterns with
  | nil => rfl
  | cons first rest inductionHypothesis =>
      rw [concat, leaves, inductionHypothesis, List.flatMap_cons]

theorem leaves_anyOf (patterns : List Pattern) :
    (anyOf patterns).leaves = patterns.flatMap leaves := by
  induction patterns with
  | nil => rfl
  | cons first rest inductionHypothesis =>
      cases rest with
      | nil => simp [anyOf]
      | cons second rest =>
          have later : (anyOf (first :: second :: rest)).leaves =
              first.leaves ++ (anyOf (second :: rest)).leaves := rfl
          rw [later, inductionHypothesis]
          exact List.flatMap_cons.symm

theorem repetitions_readLiteral (spelling : Text) (frame : Regex.Frame) :
    (readLiteral spelling frame).repetitions = frame.repetitions := by
  induction spelling generalizing frame with
  | nil => rfl
  | cons char rest inductionHypothesis =>
      have pushed := frame.repetitions_push (.single char)
      rw [Regex.repetitions, List.append_nil] at pushed
      exact (inductionHypothesis (frame.push (.single char))).trans pushed

theorem repetitions_readLeaf (kind : Leaf) (bound : Nat) (frame : Regex.Frame) :
    ((Pattern.leaf kind bound).read frame).repetitions =
      frame.repetitions ++ (kind.repetition? bound).toList := by
  have larger : room bound = max 1 bound := Nat.max_comm bound 1
  cases kind with
  | text =>
      refine (frame.repetitions_push _).trans (congrArg (frame.repetitions ++ ·) ?_)
      rw [larger]
      rfl
  | number =>
      refine (frame.repetitions_push _).trans (congrArg (frame.repetitions ++ ·) ?_)
      rw [larger]
      rfl
  | digit => exact frame.repetitions_push Leaf.digitUnit
  | null => exact (List.append_nil frame.repetitions).symm

/-- Reading a pattern adds the repetitions of its leaves. -/
theorem repetitions_read (pattern : Pattern) (frame : Regex.Frame) :
    (pattern.read frame).repetitions =
      frame.repetitions ++
        pattern.leaves.filterMap fun (kind, bound) => kind.repetition? bound := by
  induction pattern generalizing frame with
  | literal spelling =>
      rw [leaves, List.filterMap_nil, List.append_nil]
      exact repetitions_readLiteral spelling frame
  | leaf kind bound =>
      rw [repetitions_readLeaf, leaves]
      cases repeated : kind.repetition? bound <;> simp [repeated]
  | sequence first second inductionFirst inductionSecond =>
      rw [read, inductionSecond, inductionFirst, leaves, List.filterMap_append, List.append_assoc]
  | choice first second inductionFirst inductionSecond =>
      rw [read, inductionSecond, Regex.Frame.repetitions_next, inductionFirst, leaves,
        List.filterMap_append, List.append_assoc]
  | group body inductionBody =>
      rw [read, Regex.Frame.repetitions_push, Regex.Frame.repetitions_regex, inductionBody]
      rfl

/-- The written form of a pattern is a regular expression. -/
theorem ofText?_text (pattern : Pattern) :
    Regex.ofText? pattern.text = some (pattern.read {}).regex := by
  have whole := @resume_text {} [] pattern []
  rw [List.append_nil, Regex.resume_nil] at whole
  exact whole

/-- The repetitions in the text of a pattern are those of its leaves, in their order. -/
theorem repetitions_text (pattern : Pattern) :
    (pattern.read {}).regex.repetitions =
      pattern.leaves.filterMap fun (kind, bound) => kind.repetition? bound := by
  rw [Regex.Frame.repetitions_regex, repetitions_read]
  rfl

/-- The written form of a pattern matches exactly the values that the pattern accepts. -/
theorem matches_text_iff {pattern : Pattern} (grouped : pattern.Grouped true) (value : Text) :
    (pattern.read {}).regex.Matches value ↔ pattern.Accepts value := by
  have described := pattern.readAs_of_grouped.2 grouped [] [] value []
  simp only [List.not_mem_nil, false_and, exists_false, or_false] at described
  exact described

end Pattern

end GedcomGrammar
