/-
This file keeps the patterns of alternatives between checks.
-/

import GedcomGrammar.Validation

namespace GedcomGrammar

/-- The pattern of an alternative, good for one stamp of a schema and one size bound. -/
structure Matcher where
  stamp : Nat
  bound : Nat
  pattern : Pattern
  deriving DecidableEq

/-- A matcher is reused only under its own stamp and bound. -/
def Matcher.serves (matcher : Matcher) (stamp bound : Nat) : Bool :=
  matcher.stamp == stamp && matcher.bound == bound

/-- The matchers of a primitive's alternatives are kept under their positions. -/
abbrev Matchers := List (Nat × Matcher)

namespace Matchers

def find? (matchers : Matchers) (position : Nat) : Option Matcher :=
  (Keyed.find? Prod.fst position matchers).map Prod.snd

def keep (matchers : Matchers) (position : Nat) : Option Matcher → Matchers
  | none => matchers
  | some matcher => Keyed.insert Prod.fst (position, matcher) matchers

end Matchers

/-- A schema with a stamp that changes whenever a line may change a definition. -/
structure Stamped where
  schema : Schema
  stamp : Nat
  deriving DecidableEq

namespace Stamped

/-- Whether an alternative accepts a value, and the matcher to keep for it. -/
def alternativeAccepts (stamped : Stamped) (compiler : Regex.Compiler) (kept : Option Matcher)
    (bound : Nat) (definition value : Text) : Except PatternError Bool × Option Matcher :=
  match Alternatives.spelling? definition with
  | .error error => (.error error, kept)
  | .ok (some spelling) => (.ok (spelling == value), kept)
  | .ok none =>
      match kept.filter fun matcher => matcher.serves stamped.stamp bound with
      | some matcher => (.ok (matcher.pattern.accepts value), kept)
      | none =>
          match stamped.schema.matcher compiler bound definition with
          | .error error => (.error error, kept)
          | .ok pattern =>
              (.ok (pattern.accepts value), some ⟨stamped.stamp, bound, pattern⟩)

/-- The first alternative that accepts a value, found with the kept matchers. -/
def firstAccepting (stamped : Stamped) (compiler : Regex.Compiler) (matchers : Matchers)
    (bound : Nat) (value : Text) (position : Nat) :
    List Text → Except PatternError (Option Text) × Matchers
  | [] => (.ok none, matchers)
  | definition :: rest =>
      let (answer, kept) :=
        stamped.alternativeAccepts compiler (matchers.find? position) bound definition value
      let matchers := matchers.keep position kept
      match answer with
      | .error error => (.error error, matchers)
      | .ok true => (.ok (some definition), matchers)
      | .ok false => stamped.firstAccepting compiler matchers bound value (position + 1) rest

/-- Checks a value against a primitive, with the kept matchers of its alternatives. -/
def validate (stamped : Stamped) (compiler : Regex.Compiler) (matchers : Matchers)
    (primitive : Primitive) (value : Text) : Verdict × Matchers :=
  match primitive.settled? value with
  | some verdict => (verdict, matchers)
  | none =>
      let (answer, matchers) :=
        stamped.firstAccepting compiler matchers primitive.sizeMax value 0
          primitive.alternatives.definitions
      (primitive.verdict value answer, matchers)

end Stamped

end GedcomGrammar
