/-
This file names the ways in which a single line of a grammar can be malformed.
-/

import GedcomGrammar.Text.Decimal
import GedcomGrammar.Text.Quoted

namespace GedcomGrammar

/-- A grammar defines elements of three kinds. -/
inductive ElementKind where
  | primitive
  | tag
  | struct
  deriving DecidableEq

def ElementKind.name : ElementKind → Text
  | .primitive => "PRIMITIVE".toList
  | .tag => "TAG".toList
  | .struct => "STRUCTURE".toList

inductive FormatError where
  | header (kind : ElementKind) (line : Text)
  | invertedSize (min max : Nat)
  | level (text : Text)
  | count (text : Text)
  | emptyRow (line : Text)
  deriving DecidableEq

def FormatError.message : FormatError → Text
  | .header kind line =>
      "Line is not a properly formed ".toList ++ kind.name ++ " header: ".toList ++ line.quoted
  | .invertedSize min max =>
      "Size range is inverted: ".toList ++ Text.decimal min ++ ':' :: Text.decimal max
  | .level text => "Row level not understood: ".toList ++ text.quoted
  | .count text => "Row count not understood: ".toList ++ text.quoted
  | .emptyRow line =>
      "Row has nothing between its level and its count: ".toList ++ line.quoted

end GedcomGrammar
