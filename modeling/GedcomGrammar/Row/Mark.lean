/-
This file says which row the items of a line make, by counting what they begin with.
-/

import GedcomGrammar.Row.Reader

namespace GedcomGrammar.Row

/-- What an item begins with. -/
inductive Mark where
  | substructure
  | value
  | pointer
  | tags
  deriving DecidableEq

namespace Mark

/-- Two angles, one angle, an at sign, or anything else. -/
def ofText (text : Text) : Mark :=
  if "<<".toList <+: text then .substructure
  else if text.head? = some '<' then .value
  else if text.head? = some '@' then .pointer
  else .tags

/-- The items with a mark, in their order. -/
def items (mark : Mark) (texts : List Text) : List Text :=
  texts.filter fun text => ofText text = mark

/-- The part of a pointer inside its at signs and angles. -/
def inside (text : Text) : Text :=
  text.trim Item.isPointerMark

/-- What an item with a mark names, without its delimiters. -/
def name (mark : Mark) (text : Text) : Text :=
  match mark with
  | .substructure => text.trim Item.isAngle
  | .value => text.trim Item.isAngle
  | .pointer => (Text.dropLead? xrefWord (inside text)).getD (inside text)
  | .tags => text.trim Item.isBracket

/-- The names that the items with a mark give, in their order. -/
def names (mark : Mark) (texts : List Text) : List Text :=
  (mark.items texts).map mark.name

end Mark

/--
The kind of a row with these marks, unless they conflict.
The place of a mark matters only for a pointer, which opens a record where it stands first.
-/
def Kind.ofMarks? (marks : List Mark) : Option Kind :=
  if .substructure ∈ marks then
    if marks.length = 1 then some .substructure else none
  else if marks.head? = some .pointer then
    if 1 < marks.count .pointer ∨ 1 < marks.count .value then none
    else if marks.count .value = 0 then some .newRecord
    else some .newRecordWithValue
  else if 1 < marks.count .value + marks.count .pointer then none
  else if marks.count .value = 1 then some .primitiveValue
  else if marks.count .pointer = 1 then some .pointerValue
  else some .noValue

/-- The record that a row of a kind opens is named by the pointer among its items. -/
def Kind.xrefIn (kind : Kind) (texts : List Text) : Option Text :=
  if kind.has .xref then (Mark.pointer.names texts).head? else none

/-- The value of a row of a kind, wherever it stands among its items. -/
def Kind.valueIn (kind : Kind) (texts : List Text) : Option Text :=
  match kind with
  | .substructure => (Mark.substructure.names texts).head?
  | .pointerValue => (Mark.pointer.names texts).head?
  | _ => (Mark.value.names texts).head?

/-- The last tags among the items count. -/
def tagsIn (texts : List Text) : List Text :=
  ((Mark.tags.names texts).getLast?.map (List.splitOn '|')).getD []

/-- Whether a pointer among the items is spelled with the word, if there is one. -/
def prefixedIn (texts : List Text) : Bool :=
  (Mark.pointer.items texts).all fun text => decide (xrefWord <+: Mark.inside text)

/-- What an item says, in the way a row writes it. -/
def written (text : Text) : Text :=
  match Mark.ofText text with
  | .substructure => valueText (valueText (Mark.substructure.name text))
  | .value => valueText (Mark.value.name text)
  | .pointer => pointerText (decide (xrefWord <+: Mark.inside text)) (Mark.pointer.name text)
  | .tags =>
      if '|' ∈ Mark.tags.name text then '[' :: Mark.tags.name text ++ [']']
      else Mark.tags.name text

/-- All items but the tags that later tags replace. -/
def keptIn (texts : List Text) : List Text :=
  texts.filter (fun text => Mark.ofText text ≠ .tags) ++ (Mark.tags.items texts).getLast?.toList

/-- A row has the kind that the marks of its items make, and its facets from these items. -/
structure Gathers (row : Row) (texts : List Text) : Prop where
  kind : Kind.ofMarks? (texts.map Mark.ofText) = some row.kind
  xref : row.body.xref? = row.kind.xrefIn texts
  tags : row.body.tags = tagsIn texts
  value : row.body.value? = row.kind.valueIn texts
  prefixed : row.prefixed = prefixedIn texts

/-- A line is judged by its first item, then its last one, then the items between them. -/
inductive Judged (line first : Text) (middle : List Text) (last : Text) :
    Except RowError Row → Prop where
  | level (bad : ∀ level, Level.ofText first ≠ .ok level) :
      Judged line first middle last (.error (.format (.level first)))
  | count {level : Level} (leveled : Level.ofText first = .ok level)
      (bad : ∀ occurrence, Occurrence.ofText last ≠ .ok occurrence) :
      Judged line first middle last (.error (.format (.count last)))
  | conflict {level : Level} {occurrence : Occurrence} (leveled : Level.ofText first = .ok level)
      (counted : Occurrence.ofText last = .ok occurrence)
      (mixed : Kind.ofMarks? (middle.map Mark.ofText) = none) :
      Judged line first middle last (.error (.conflictingDefinition line))
  | untagged {level : Level} {occurrence : Occurrence} {kind : Kind}
      (leveled : Level.ofText first = .ok level)
      (counted : Occurrence.ofText last = .ok occurrence)
      (made : Kind.ofMarks? (middle.map Mark.ofText) = some kind)
      (composed : kind ≠ .substructure) (bare : .tags ∉ middle.map Mark.ofText) :
      Judged line first middle last (.error (.missingFacet kind .tags))
  | row {row : Row} (leveled : Level.ofText first = .ok row.level)
      (counted : Occurrence.ofText last = .ok row.occurrence) (gathers : row.Gathers middle)
      (tagged : row.kind = .substructure ∨ .tags ∈ middle.map Mark.ofText) :
      Judged line first middle last (.ok row)

end GedcomGrammar.Row
