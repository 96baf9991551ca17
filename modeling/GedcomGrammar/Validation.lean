/-
This file checks values against primitives.
-/

import GedcomGrammar.Expansion
import GedcomGrammar.Pattern.Matching

namespace GedcomGrammar

inductive ValidationError where
  | minSize (label : Text) (length min : Nat)
  | maxSize (label : Text) (length max : Nat)
  | value (label tested : Text)
  | pattern (error : PatternError)
  deriving DecidableEq

def ValidationError.message : ValidationError → Text
  | .minSize label length min =>
      label ++ ": ".toList ++ Text.decimal length ++
        " characters is below the minimum size of ".toList ++ Text.decimal min
  | .maxSize label length max =>
      label ++ ": ".toList ++ Text.decimal length ++
        " characters is above the maximum size of ".toList ++ Text.decimal max
  | .value label tested =>
      label ++ ": ".toList ++ tested.quoted ++ " is not an allowed value".toList
  | .pattern error => error.message

namespace Alternatives

/-- An alternative without references to primitives has a single value. -/
def spelling? (definition : Text) : Except PatternError (Option Text) :=
  match Component.ofDefinition definition with
  | .error error => .error (.unmatched error)
  | .ok components =>
      if (Component.kinds components).primitives then .ok none
      else .ok (some (components.flatMap Component.value))

end Alternatives

/-- A verdict names the alternative that a value satisfies, if the primitive has any. -/
abbrev Verdict := Except ValidationError (Option Text)

namespace Primitive

/-- Sizes, and the label of the empty value, settle a value before any alternative is tried. -/
def settled? (primitive : Primitive) (value : Text) : Option Verdict :=
  if value.length < primitive.sizeMin then
    some (.error (.minSize primitive.label value.length primitive.sizeMin))
  else if primitive.sizeMax < value.length then
    some (.error (.maxSize primitive.label value.length primitive.sizeMax))
  else if primitive.label = Leaf.null.label then
    some (if value = [] then .ok none else .error (.value primitive.label value))
  else none

/-- The verdict once the alternatives were tried. -/
def verdict (primitive : Primitive) (value : Text) :
    Except PatternError (Option Text) → Verdict
  | .error error => .error (.pattern error)
  | .ok none => .error (.value primitive.label value)
  | .ok (some definition) => .ok (some definition)

end Primitive

namespace Schema

/-- The pattern that decides the values of an alternative with references, if it compiles. -/
def matcher (schema : Schema) (compiler : Regex.Compiler) (bound : Nat) (definition : Text) :
    Except PatternError Pattern :=
  match schema.alternativePattern bound definition with
  | .error error => .error error
  | .ok pattern =>
      match compiler.refusal? pattern.anchoredText with
      | some refusal => .error (.refused refusal)
      | none => .ok pattern

/-- Whether an alternative accepts a value. -/
def alternativeAccepts (schema : Schema) (compiler : Regex.Compiler) (bound : Nat)
    (definition value : Text) : Except PatternError Bool :=
  match Alternatives.spelling? definition with
  | .error error => .error error
  | .ok (some spelling) => .ok (spelling == value)
  | .ok none => (schema.matcher compiler bound definition).map fun pattern => pattern.accepts value

/-- The first alternative that accepts a value, or the first fault before it. -/
def firstAccepting (schema : Schema) (compiler : Regex.Compiler) (bound : Nat) (value : Text) :
    List Text → Except PatternError (Option Text)
  | [] => .ok none
  | definition :: rest =>
      match schema.alternativeAccepts compiler bound definition value with
      | .error error => .error error
      | .ok true => .ok (some definition)
      | .ok false => schema.firstAccepting compiler bound value rest

/-- Checks a value against a primitive. -/
def validate (schema : Schema) (compiler : Regex.Compiler) (primitive : Primitive) (value : Text) :
    Verdict :=
  match primitive.settled? value with
  | some verdict => verdict
  | none =>
      primitive.verdict value
        (schema.firstAccepting compiler primitive.sizeMax value
          primitive.alternatives.definitions)

end Schema

/-- A value cannot be checked, or it is not allowed. -/
inductive CheckError where
  | grammar (error : ParseError)
  | unknownPrimitive (label : Text)
  | invalid (error : ValidationError)
  deriving DecidableEq

def CheckError.message : CheckError → Text
  | .grammar error => error.message
  | .unknownPrimitive label => "Unknown primitive: ".toList ++ label
  | .invalid error => error.message

/-- The alternative that a value satisfies in a grammar, or an empty text if none is to be named. -/
def checkValue (compiler : Regex.Compiler) (source label value : Text) :
    Except CheckError Text :=
  match Schema.ofText source with
  | .error error => .error (.grammar error)
  | .ok schema =>
      match schema.primitive? label with
      | none => .error (.unknownPrimitive label)
      | some primitive =>
          match schema.validate compiler primitive value with
          | .error error => .error (.invalid error)
          | .ok accepted => .ok (accepted.getD [])

end GedcomGrammar
