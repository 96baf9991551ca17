/-
This file says what a command line asks for, one option or input at a time.
-/

import GedcomGrammar.CommandLine.Arguments

namespace GedcomGrammar.CommandLine

/-- An option with all its operands, or an input. -/
inductive Segment where
  | output (path : Text)
  | pattern (label : Text)
  | check (label value : Text)
  | quiet
  | input (path : Text)
  deriving DecidableEq

namespace Segment

/-- The two spellings of each option. -/
def outputFlags : List Text := ["-o".toList, "--output".toList]

def patternFlags : List Text := ["-p".toList, "--pattern".toList]

def checkFlags : List Text := ["-c".toList, "--check".toList]

def quietFlags : List Text := ["-q".toList, "--quiet".toList]

/-- Operands are arbitrary, and an input does not start with a dash. -/
inductive Spelling : Segment → List Text → Prop where
  | output {flag : Text} (path : Text) (known : flag ∈ outputFlags) :
      Spelling (.output path) [flag, path]
  | pattern {flag : Text} (label : Text) (known : flag ∈ patternFlags) :
      Spelling (.pattern label) [flag, label]
  | check {flag : Text} (label value : Text) (known : flag ∈ checkFlags) :
      Spelling (.check label value) [flag, label, value]
  | quiet {flag : Text} (known : flag ∈ quietFlags) : Spelling .quiet [flag]
  | input {path : Text} (plain : path.head? ≠ some '-') : Spelling (.input path) [path]

/-- The arguments of several segments stand one after another. -/
inductive Spelled : List Segment → List Text → Prop where
  | nil : Spelled [] []
  | cons {segment : Segment} {rest : List Segment} {front back : List Text}
      (spelling : segment.Spelling front) (spelled : Spelled rest back) :
      Spelled (segment :: rest) (front ++ back)

/-- An option at the very end whose only operand is missing. -/
def Dangling (arguments : List Text) : Prop :=
  ∃ flag ∈ outputFlags ++ patternFlags, arguments = [flag]

/-- A check at the very end that has no value, or neither a label nor a value. -/
def HalfCheck (arguments : List Text) : Prop :=
  ∃ flag ∈ checkFlags, ∃ operands, operands.length < 2 ∧ arguments = flag :: operands

/-- An option at the very end, of whose operands not all are there. -/
def Unfinished (arguments : List Text) : Prop :=
  Dangling arguments ∨ HalfCheck arguments

/-- Complete segments are read off the front of the arguments, and the rest is left. -/
def Reads (arguments : List Text) (segments : List Segment) (rest : List Text) : Prop :=
  ∃ front, arguments = front ++ rest ∧ Spelled segments front

/-- The part of a request that a segment is about. -/
inductive Group where
  | inputs
  | output
  | mode
  | quiet
  deriving DecidableEq

def group : Segment → Group
  | .output _ => .output
  | .pattern _ => .mode
  | .check _ _ => .mode
  | .quiet => .quiet
  | .input _ => .inputs

/-- Segments are moved past those of other groups only. -/
def Rearranged (first second : List Segment) : Prop :=
  ∀ group, first.filter (fun segment => segment.group = group) =
    second.filter (fun segment => segment.group = group)

def input? : Segment → Option Text
  | .input path => some path
  | _ => none

def output? : Segment → Option Text
  | .output path => some path
  | _ => none

def mode? : Segment → Option Mode
  | .pattern label => some (.pattern label)
  | .check label value => some (.check label value)
  | _ => none

end Segment

/-- All inputs count, in their order, and of each option only the last one. -/
def Request.ofSegments (segments : List Segment) : Request where
  inputs := segments.filterMap Segment.input?
  output := (segments.filterMap Segment.output?).getLast?
  mode := (segments.filterMap Segment.mode?).getLast?.getD .dump
  quiet := segments.contains .quiet

/-- The segments that the arguments have up to an option that is missing its operand. -/
def Understood (arguments : List Text) (segments : List Segment) : Prop :=
  ∃ front rest, arguments = front ++ rest ∧ Segment.Spelled segments front ∧
    (rest = [] ∨ Segment.Dangling rest)

end GedcomGrammar.CommandLine
