/-
This file defines workspaces, which hold named schemas and alternatives with their matchers.
-/

import GedcomGrammar.Matcher

namespace GedcomGrammar

namespace Schema

/-- The primitive that a line gives new alternatives: its header, or a list of them, does that. -/
def renewed? (schema : Schema) (line : Text) : Option Text :=
  match Text.withoutLineEnd line with
  | [] => none
  | content =>
      if Element.isHeader content then
        match Element.ofHeader (Element.headerKind content) content with
        | .ok (.primitive primitive) => some primitive.label
        | _ => none
      else
        match schema.opened, Primitive.alternatives? content with
        | some (.primitive, label), some _ => some label
        | _, _ => none

end Schema

/-- A schema with its stamp, and the matchers of the primitives that it declares. -/
structure Edition where
  stamped : Stamped
  matchers : List (Text × Matchers) := []
  deriving DecidableEq

/-- Every line with content takes a tick of the clock. -/
def tick (clock : Nat) (line : Text) : Nat :=
  if line.withoutLineEnd = [] then clock else clock + 1

namespace Edition

/-- A fresh schema has stamp zero, whatever its depth limit. -/
def fresh (depthLimit : Nat) : Edition :=
  { stamped := ⟨{ depthLimit }, 0⟩ }

def schema (edition : Edition) : Schema :=
  edition.stamped.schema

def stamp (edition : Edition) : Nat :=
  edition.stamped.stamp

/-- The matchers of a primitive. -/
def matchersOf (edition : Edition) (label : Text) : Matchers :=
  ((Keyed.find? Prod.fst label edition.matchers).map Prod.snd).getD []

def keep (edition : Edition) (label : Text) (matchers : Matchers) : Edition :=
  { edition with matchers := Keyed.insert Prod.fst (label, matchers) edition.matchers }

/-- New alternatives of a primitive start without matchers. -/
def remaining (edition : Edition) (renewed : Option Text) : List (Text × Matchers) :=
  edition.matchers.filter fun kept => some kept.1 ≠ renewed

def close (edition : Edition) : Edition :=
  { edition with stamped := ⟨edition.schema.close, edition.stamp⟩ }

/-- A line with content is stamped with the time, and a blank line leaves the stamp. -/
def addLine (edition : Edition) (clock : Nat) (line : Text) : Edition × Option ParseError :=
  let (schema, error) := edition.schema.addLine line
  let stamp := if line.withoutLineEnd = [] then edition.stamp else clock
  ({ stamped := ⟨schema, stamp⟩, matchers := edition.remaining (edition.schema.renewed? line) },
    error)

/-- Lines are added up to the first one that is refused, each at its own time. -/
def addLines (edition : Edition) (clock number : Nat) :
    List Text → (Edition × Nat) × Option ParseError
  | [] => ((edition, clock), none)
  | line :: rest =>
      match edition.addLine clock line with
      | (refused, some error) => ((refused, tick clock line), some (.atLine number error))
      | (extended, none) => extended.addLines (tick clock line) (number + 1) rest

/-- No element is open before the lines of a text or after all of them. -/
def addText (edition : Edition) (clock : Nat) (text : Text) :
    (Edition × Nat) × Option ParseError :=
  match edition.close.addLines clock 1 text.lines with
  | (refused, some error) => (refused, some error)
  | ((extended, clock), none) => ((extended.close, clock), none)

end Edition

/-- An alternative that no schema declares keeps its matcher across schemas. -/
structure HeldAlternative where
  definition : Text
  matcher : Option Matcher := none
  deriving DecidableEq

/-- A primitive that no schema declares keeps the matchers of its alternatives. -/
structure HeldPrimitive where
  primitive : Primitive
  matchers : Matchers := []
  deriving DecidableEq

/-- Stamps are taken from one clock for all schemas. -/
structure Workspace where
  editions : List (Text × Edition) := []
  alternatives : List (Text × HeldAlternative) := []
  primitives : List (Text × HeldPrimitive) := []
  clock : Nat := 1
  deriving DecidableEq

namespace Workspace

def edition? (workspace : Workspace) (name : Text) : Option Edition :=
  (Keyed.find? Prod.fst name workspace.editions).map Prod.snd

def schema? (workspace : Workspace) (name : Text) : Option Schema :=
  (workspace.edition? name).map Edition.schema

def alternative? (workspace : Workspace) (name : Text) : Option HeldAlternative :=
  (Keyed.find? Prod.fst name workspace.alternatives).map Prod.snd

def primitive? (workspace : Workspace) (name : Text) : Option HeldPrimitive :=
  (Keyed.find? Prod.fst name workspace.primitives).map Prod.snd

def putEdition (workspace : Workspace) (name : Text) (edition : Edition) : Workspace :=
  { workspace with editions := Keyed.insert Prod.fst (name, edition) workspace.editions }

def putAlternative (workspace : Workspace) (name : Text) (held : HeldAlternative) : Workspace :=
  { workspace with
    alternatives := Keyed.insert Prod.fst (name, held) workspace.alternatives }

def putPrimitive (workspace : Workspace) (name : Text) (held : HeldPrimitive) : Workspace :=
  { workspace with primitives := Keyed.insert Prod.fst (name, held) workspace.primitives }

/-- A name is given to a schema without elements. -/
def newSchema (workspace : Workspace) (name : Text) (depthLimit : Nat) : Workspace :=
  workspace.putEdition name (.fresh depthLimit)

/-- Adds a line to an edition under a name. -/
def addLine (workspace : Workspace) (name : Text) (edition : Edition) (line : Text) :
    Workspace × Option ParseError :=
  let (extended, error) := edition.addLine workspace.clock line
  ({ workspace.putEdition name extended with clock := tick workspace.clock line }, error)

/-- Adds a text to an edition under a name. -/
def addText (workspace : Workspace) (name : Text) (edition : Edition) (text : Text) :
    Workspace × Option ParseError :=
  let ((extended, clock), error) := edition.addText workspace.clock text
  ({ workspace.putEdition name extended with clock }, error)

/-- Gives a name to the schema of a text; a text that is refused only takes time. -/
def load (workspace : Workspace) (name text : Text) : Workspace × Option ParseError :=
  match (Edition.fresh ({} : Schema).depthLimit).addText workspace.clock text with
  | ((_, clock), some error) => ({ workspace with clock }, some error)
  | ((loaded, clock), none) => ({ workspace.putEdition name loaded with clock }, none)

/-- A name is given to an alternative that no check has used. -/
def hold (workspace : Workspace) (name definition : Text) : Workspace :=
  workspace.putAlternative name { definition }

/-- A copy of an alternative starts with the matcher of the first. -/
def copy (workspace : Workspace) (held : HeldAlternative) (name : Text) : Workspace :=
  workspace.putAlternative name held

/-- Checks a value against a primitive of an edition under a name, with a stamped schema. -/
def validateWith (workspace : Workspace) (compiler : Regex.Compiler) (name : Text)
    (edition : Edition) (primitive : Primitive) (stamped : Stamped) (value : Text) :
    Verdict × Workspace :=
  let (verdict, matchers) :=
    stamped.validate compiler (edition.matchersOf primitive.label) primitive value
  (verdict, workspace.putEdition name (edition.keep primitive.label matchers))

/-- Checks a value against a primitive of an edition, with the schema of the edition itself. -/
def validate (workspace : Workspace) (compiler : Regex.Compiler) (name : Text)
    (edition : Edition) (primitive : Primitive) (value : Text) : Verdict × Workspace :=
  workspace.validateWith compiler name edition primitive edition.stamped value

/-- Checks a value against an alternative under a name, with the schema of an edition. -/
def alternativeAccepts (workspace : Workspace) (compiler : Regex.Compiler) (name : Text)
    (held : HeldAlternative) (edition : Edition) (bound : Nat) (value : Text) :
    Except PatternError Bool × Workspace :=
  let (answer, matcher) :=
    edition.stamped.alternativeAccepts compiler held.matcher bound held.definition value
  (answer, workspace.putAlternative name { held with matcher })

end Workspace

end GedcomGrammar
