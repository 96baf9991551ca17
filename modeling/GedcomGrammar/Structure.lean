/-
This file defines structures: alternative groups of rows under one label.
-/

import GedcomGrammar.Row.Reader

namespace GedcomGrammar

/-- A structure has at least one group, and the last one takes the next row. -/
structure Structure where
  label : Text
  description : Text := []
  closedGroups : List (List Row) := []
  lastGroup : List Row := []
  deriving DecidableEq

namespace Structure

/-- The alternative groups, in order. -/
def groups (shape : Structure) : List (List Row) :=
  shape.closedGroups ++ [shape.lastGroup]

/-- The rows of all groups, in order. -/
def rows (shape : Structure) : List Row :=
  shape.groups.flatten

/-- A header has no space, and all before its mark is the label. -/
def ofHeader (line : Text) : Except FormatError Structure :=
  match Text.dropTail? [':', '='] line with
  | some label =>
      if line.contains ' ' then .error (.header .struct line) else .ok { label }
  | none => .error (.header .struct line)

/-- The first character of a row. -/
def startsRow : Text → Bool
  | first :: _ => first == 'n' || first == '0' || first == '+'
  | [] => false

def addRow (shape : Structure) (row : Row) : Structure :=
  { shape with lastGroup := shape.lastGroup ++ [row] }

/-- The last group is closed and an empty one opened. -/
def addGroup (shape : Structure) : Structure :=
  { shape with closedGroups := shape.groups, lastGroup := [] }

/--
A line is a row, separates groups, or extends the description.
Brackets around the groups, and blank lines after a row, add nothing.
-/
def addLine (shape : Structure) (line : Text) : Except RowError Structure :=
  if startsRow line then (Row.ofLine line).map shape.addRow
  else if line = ['|'] then .ok shape.addGroup
  else if line = [] ∧ shape.rows ≠ [] then .ok shape
  else if line = ['['] ∨ line = [']'] then .ok shape
  else .ok { shape with description := shape.description.addLine line }

def headerText (shape : Structure) : Text :=
  shape.label ++ [':', '=']

def groupText (group : List Row) : Text :=
  Text.joinWith ['\n'] (group.map Row.text)

/-- Several groups stand between brackets, with a bar between neighbours. -/
def groupsText (shape : Structure) : Text :=
  match shape.closedGroups with
  | [] => groupText shape.lastGroup
  | _ =>
      ['[', '\n'] ++ Text.joinWith ['\n', '|', '\n'] (shape.groups.map groupText) ++
        ['\n', ']']

/-- Groups without any row are not written. -/
def parts (shape : Structure) : List Text :=
  [shape.headerText] ++
    (if shape.description = [] then [] else [shape.description]) ++
    (if shape.rows = [] then [] else [shape.groupsText])

def text (shape : Structure) : Text :=
  Text.joinWith ['\n'] shape.parts

end Structure

end GedcomGrammar
