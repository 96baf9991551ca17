/-
This file checks values as if a repetition without room took no text at all.
-/

import GedcomGrammar.Pattern.Language
import GedcomGrammar.Validation

namespace GedcomGrammar

/-- Text and numbers are repetitions, which need a bound above zero to have room. -/
def Leaf.hasRoom (bound : Nat) : Leaf → Bool
  | .text => 0 < bound
  | .number => 0 < bound
  | .digit => true
  | .null => true

namespace Pattern

/-- What a pattern describes if a leaf without room describes no text. -/
def AcceptsStrictly : Pattern → Text → Prop
  | .literal spelling, value => value = spelling
  | .leaf kind bound, value => kind.hasRoom bound = true ∧ kind.Accepts bound value
  | .sequence first second, value =>
      ∃ left right, value = left ++ right ∧ first.AcceptsStrictly left ∧
        second.AcceptsStrictly right
  | .choice first second, value => first.AcceptsStrictly value ∨ second.AcceptsStrictly value
  | .group body, value => body.AcceptsStrictly value

/-- The pattern without the choices that need a leaf without room, if there are others. -/
def pruned? : Pattern → Option Pattern
  | .literal spelling => some (.literal spelling)
  | .leaf kind bound => if kind.hasRoom bound then some (.leaf kind bound) else none
  | .sequence first second =>
      match first.pruned?, second.pruned? with
      | some first, some second => some (.sequence first second)
      | _, _ => none
  | .choice first second =>
      match first.pruned?, second.pruned? with
      | some first, some second => some (.choice first second)
      | some first, none => some first
      | none, second => second
  | .group body => body.pruned?.map .group

/-- Matches a value against what is left of a pattern. -/
def acceptsStrictly (pattern : Pattern) (value : Text) : Bool :=
  pattern.pruned?.any fun left => left.accepts value

end Pattern

/-- The outcome of a verdict does not say which alternative was satisfied. -/
def Verdict.outcome (verdict : Verdict) : Except ValidationError Unit :=
  verdict.map fun _ => ()

namespace Schema

section Judges

variable (schema : Schema) (compiler : Regex.Compiler) (judge : Pattern → Text → Bool)

/-- Whether an alternative accepts a value, when a given judge decides for its pattern. -/
def alternativeAcceptsBy (bound : Nat) (definition value : Text) : Except PatternError Bool :=
  match Alternatives.spelling? definition with
  | .error error => .error error
  | .ok (some spelling) => .ok (spelling == value)
  | .ok none => (schema.matcher compiler bound definition).map fun pattern => judge pattern value

/-- The first alternative that accepts a value under a judge, or the first fault before it. -/
def firstAcceptingBy (bound : Nat) (value : Text) : List Text → Except PatternError (Option Text)
  | [] => .ok none
  | definition :: rest =>
      match schema.alternativeAcceptsBy compiler judge bound definition value with
      | .error error => .error error
      | .ok true => .ok (some definition)
      | .ok false => firstAcceptingBy bound value rest

/-- Checks a value against a primitive under a judge. -/
def validateBy (primitive : Primitive) (value : Text) : Verdict :=
  match primitive.settled? value with
  | some verdict => verdict
  | none =>
      primitive.verdict value
        (schema.firstAcceptingBy compiler judge primitive.sizeMax value
          primitive.alternatives.definitions)

end Judges

/-- Checks a value as if a leaf without room took no text. -/
def validateStrictly (schema : Schema) (compiler : Regex.Compiler) : Primitive → Text → Verdict :=
  schema.validateBy compiler Pattern.acceptsStrictly

/-- What a definition describes if a leaf without room describes no text. -/
def DescribesStrictly (schema : Schema) (definition : Text) (bound : Nat) (value : Text) : Prop :=
  ∃ pattern, schema.alternativePattern bound definition = .ok pattern ∧
    pattern.AcceptsStrictly value

end Schema

end GedcomGrammar
