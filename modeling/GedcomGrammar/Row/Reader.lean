/-
This file reads rows from lines and builds them from their facets.
-/

import GedcomGrammar.Row

namespace GedcomGrammar

inductive RowError where
  | format (error : FormatError)
  | conflictingDefinition (line : Text)
  | missingFacet (kind : Row.Kind) (facet : Row.Facet)
  | forbiddenFacet (kind : Row.Kind) (facet : Row.Facet)
  deriving DecidableEq

def RowError.message : RowError → Text
  | .format error => error.message
  | .conflictingDefinition line =>
      "Row has a conflicting definition: ".toList ++ line.quoted
  | .missingFacet kind facet => kind.name ++ " rows require ".toList ++ facet.name
  | .forbiddenFacet kind facet => kind.name ++ " rows cannot have ".toList ++ facet.name

namespace Row

def Kind.facetError (kind : Kind) (facet : Facet) : RowError :=
  if kind.has facet then .missingFacet kind facet else .forbiddenFacet kind facet

/-- The first facet that is present without being due, or due without being present. -/
def Kind.firstError (kind : Kind) (xref tags : Bool) : RowError :=
  if kind.has .xref != xref then kind.facetError .xref
  else if kind.has .tags != tags then kind.facetError .tags
  else kind.facetError .value

/-- A body has exactly the facets of its kind. -/
def Body.ofFacets (kind : Kind) (xref : Option Text) (tags : List Text) (value : Option Text) :
    Except RowError Body :=
  match kind, xref, Tags.ofList? tags, value with
  | .noValue, none, some tags, none => .ok (.noValue tags)
  | .substructure, none, none, some label => .ok (.substructure label)
  | .newRecord, some xref, some tags, none => .ok (.newRecord xref tags)
  | .newRecordWithValue, some xref, some tags, some value =>
      .ok (.newRecordWithValue xref tags value)
  | .pointerValue, none, some tags, some target => .ok (.pointerValue tags target)
  | .primitiveValue, none, some tags, some value => .ok (.primitiveValue tags value)
  | _, _, tags, _ => .error (kind.firstError xref.isSome tags.isSome)

/-- A row built from its facets spells its pointer with the prefix. -/
def ofFacets (kind : Kind) (level : Level) (xref : Option Text) (tags : List Text)
    (value : Option Text) (occurrence : Occurrence) : Except RowError Row :=
  (Body.ofFacets kind xref tags value).map fun body => { level, body, occurrence }

/-- One item of a line, between the level and the count. -/
inductive Item where
  | substructure (label : Text)
  | value (name : Text)
  | pointer (type : Text) (prefixed : Bool)
  | tags (names : List Text)
  deriving DecidableEq

namespace Item

def isAngle (char : Char) : Bool :=
  char == '<' || char == '>'

def isPointerMark (char : Char) : Bool :=
  char == '@' || isAngle char

def isBracket (char : Char) : Bool :=
  char == '[' || char == ']'

/-- The type of a pointer stands inside at signs and angles, after an optional prefix. -/
def ofPointer (text : Text) : Item :=
  let inner := text.trim isPointerMark
  match Text.dropLead? xrefWord inner with
  | some type => .pointer type true
  | none => .pointer inner false

/-- The first characters of an item decide what it is. -/
def ofText (text : Text) : Item :=
  match text with
  | '<' :: '<' :: _ => .substructure (text.trim isAngle)
  | '<' :: _ => .value (text.trim isAngle)
  | '@' :: _ => ofPointer text
  | _ => .tags ((text.trim isBracket).splitOn '|')

def isSubstructure : Item → Bool
  | .substructure _ => true
  | _ => false

end Item

/-- What the items after the level and an opening pointer have said so far. -/
structure Draft where
  tags : List Text := []
  value : Option Text := none
  pointer : Option (Text × Bool) := none
  deriving DecidableEq

/-- A row has at most one value or pointer, and its last tags count. -/
def Draft.add (draft : Draft) : Item → Option Draft
  | .substructure _ => none
  | .value name =>
      if draft.value.isSome || draft.pointer.isSome then none
      else some { draft with value := some name }
  | .pointer type prefixed =>
      if draft.value.isSome || draft.pointer.isSome then none
      else some { draft with pointer := some (type, prefixed) }
  | .tags names => some { draft with tags := names }

/-- A row that starts with a pointer opens a record and has no other pointer. -/
def Draft.record (draft : Draft) (xref : Text) : Option (Except RowError Body) :=
  match draft.pointer, draft.value with
  | some _, _ => none
  | none, none => some (Body.ofFacets .newRecord (some xref) draft.tags none)
  | none, some value =>
      some (Body.ofFacets .newRecordWithValue (some xref) draft.tags (some value))

/-- Any other row has no value, a pointer or a primitive value. -/
def Draft.member (draft : Draft) : Except RowError Body :=
  match draft.pointer, draft.value with
  | some (target, _), _ => Body.ofFacets .pointerValue none draft.tags (some target)
  | none, none => Body.ofFacets .noValue none draft.tags none
  | none, some value => Body.ofFacets .primitiveValue none draft.tags (some value)

def Draft.prefixed (draft : Draft) : Bool :=
  draft.pointer.all fun pointer => pointer.2

/-- The body that the items make, with the spelling of its pointer, unless the items conflict. -/
def Body.ofItems (items : List Item) : Option (Except RowError (Body × Bool)) :=
  if items.any Item.isSubstructure then
    match items with
    | [.substructure label] => some (.ok (.substructure label, true))
    | _ => none
  else
    match items with
    | .pointer xref prefixed :: rest => do
        let draft ← rest.foldlM Draft.add {}
        let body ← draft.record xref
        some (body.map fun body => (body, prefixed))
    | _ => do
        let draft ← items.foldlM Draft.add {}
        some (draft.member.map fun body => (body, draft.prefixed))

/-- A row is read from its items: the level, the body and the count. -/
def ofItems (line : Text) (first : Text) (middle : List Text) (last : Text) :
    Except RowError Row :=
  match Level.ofText first with
  | .error error => .error (.format error)
  | .ok level =>
      match Occurrence.ofText last with
      | .error error => .error (.format error)
      | .ok occurrence =>
          match Body.ofItems (middle.map Item.ofText) with
          | none => .error (.conflictingDefinition line)
          | some (.error error) => .error error
          | some (.ok (body, prefixed)) => .ok { level, body, occurrence, prefixed }

/-- The items of a line stand one space apart, and a row has at least three. -/
def ofLine (line : Text) : Except RowError Row :=
  match line.splitOn ' ' with
  | first :: second :: third :: others =>
      let middle := (second :: third :: others).dropLast
      ofItems line first middle ((third :: others).getLast (by simp))
  | _ => .error (.format (.emptyRow line))

end Row

end GedcomGrammar
