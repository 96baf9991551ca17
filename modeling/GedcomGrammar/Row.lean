/-
This file defines the rows of a structure and their written form.
-/

import GedcomGrammar.Row.Level
import GedcomGrammar.Row.Occurrence

namespace GedcomGrammar

namespace Row

inductive Kind where
  | noValue
  | substructure
  | newRecord
  | newRecordWithValue
  | pointerValue
  | primitiveValue
  deriving DecidableEq

def Kind.name : Kind → Text
  | .noValue => "NoValue".toList
  | .substructure => "Substructure".toList
  | .newRecord => "NewRecord".toList
  | .newRecordWithValue => "NewRecordWithValue".toList
  | .pointerValue => "PointerValue".toList
  | .primitiveValue => "PrimitiveValue".toList

/-- The parts that a row may have between its level and its count. -/
inductive Facet where
  | xref
  | tags
  | value
  deriving DecidableEq

def Facet.name : Facet → Text
  | .xref => "an XREF".toList
  | .tags => "a list of TAGS".toList
  | .value => "a VALUE".toList

/-- Each kind of row has exactly these facets. -/
def Kind.has : Kind → Facet → Bool
  | .noValue, facet => facet == .tags
  | .substructure, facet => facet == .value
  | .newRecord, facet => facet != .value
  | .newRecordWithValue, _ => true
  | .pointerValue, facet => facet != .xref
  | .primitiveValue, facet => facet != .xref

/-- A row has one tag or a choice of several. -/
structure Tags where
  first : Text
  others : List Text
  deriving DecidableEq

namespace Tags

def toList (tags : Tags) : List Text :=
  tags.first :: tags.others

def ofList? : List Text → Option Tags
  | [] => none
  | first :: others => some ⟨first, others⟩

/-- A single tag stands without brackets. -/
def text (tags : Tags) : Text :=
  match tags.others with
  | [] => tags.first
  | _ => '[' :: Text.joinWith ['|'] tags.toList ++ [']']

end Tags

/-- What a row says between its level and its count. -/
inductive Body where
  | noValue (tags : Tags)
  | substructure (label : Text)
  | newRecord (xref : Text) (tags : Tags)
  | newRecordWithValue (xref : Text) (tags : Tags) (value : Text)
  | pointerValue (tags : Tags) (target : Text)
  | primitiveValue (tags : Tags) (value : Text)
  deriving DecidableEq

namespace Body

def kind : Body → Kind
  | .noValue _ => .noValue
  | .substructure _ => .substructure
  | .newRecord _ _ => .newRecord
  | .newRecordWithValue _ _ _ => .newRecordWithValue
  | .pointerValue _ _ => .pointerValue
  | .primitiveValue _ _ => .primitiveValue

def xref? : Body → Option Text
  | .newRecord xref _ => some xref
  | .newRecordWithValue xref _ _ => some xref
  | _ => none

def tags : Body → List Text
  | .noValue tags => tags.toList
  | .substructure _ => []
  | .newRecord _ tags => tags.toList
  | .newRecordWithValue _ tags _ => tags.toList
  | .pointerValue tags _ => tags.toList
  | .primitiveValue tags _ => tags.toList

def value? : Body → Option Text
  | .substructure label => some label
  | .newRecordWithValue _ _ value => some value
  | .pointerValue _ target => some target
  | .primitiveValue _ value => some value
  | _ => none

end Body

end Row

/--
One row of a structure, such as `+1 SEX <SEX_VALUE> {0:1}`.
The pointer of a prefixed row names its type after the word `XREF`.
-/
structure Row where
  level : Level
  body : Row.Body
  occurrence : Occurrence
  prefixed : Bool := true
  deriving DecidableEq

namespace Row

/-- The word that may stand before the type of a pointer. -/
def xrefWord : Text := "XREF:".toList

def pointerText (prefixed : Bool) (type : Text) : Text :=
  "@<".toList ++ (if prefixed then xrefWord else []) ++ type ++ ">@".toList

def valueText (value : Text) : Text :=
  '<' :: value ++ ['>']

/-- The items of a row between its level and its count. -/
def Body.items (prefixed : Bool) : Body → List Text
  | .noValue tags => [tags.text]
  | .substructure label => [valueText (valueText label)]
  | .newRecord xref tags => [pointerText prefixed xref, tags.text]
  | .newRecordWithValue xref tags value =>
      [pointerText prefixed xref, tags.text, valueText value]
  | .pointerValue tags target => [tags.text, pointerText prefixed target]
  | .primitiveValue tags value => [tags.text, valueText value]

/-- The items of a row stand one space apart. -/
def text (row : Row) : Text :=
  Text.joinWith [' ']
    (row.level.text :: row.body.items row.prefixed ++ [row.occurrence.text])

def kind (row : Row) : Kind :=
  row.body.kind

/-- Whether the row may occur so many times. -/
def accepts (row : Row) (count : UInt32) : Bool :=
  row.occurrence.accepts count

end Row

end GedcomGrammar
