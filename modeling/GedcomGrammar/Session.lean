/-
This file defines sessions, which put requests to a workspace one after another.
-/

import GedcomGrammar.Workspace

namespace GedcomGrammar

/-- Where an alternative is: alone under a name, or at a position of a primitive. -/
inductive Place where
  | alone (name : Text)
  | declared (schema label : Text) (position : Nat)
  | held (name : Text) (position : Nat)
  deriving DecidableEq

/-- Where a primitive is: declared by a schema, or held under a name. -/
inductive Home where
  | declared (schema label : Text)
  | held (name : Text)
  deriving DecidableEq

/-- A check may use any schema, also one that does not declare what it checks. -/
inductive Request where
  | newSchema (name : Text) (depthLimit : Nat)
  | addLine (name line : Text)
  | addText (name text : Text)
  | load (name text : Text)
  | hold (name definition : Text)
  | holdPrimitive (name : Text) (primitive : Primitive)
  | copy (place : Place) (target : Text)
  | copyPrimitive (home : Home) (target : Text)
  | check (place : Place) (schema : Text) (bound : Nat) (value : Text)
  | validate (home : Home) (schema value : Text)
  deriving DecidableEq

inductive Answer where
  | missing
  | done
  | added (error : Option ParseError)
  | accepted (result : Except PatternError Bool)
  | verdict (verdict : Verdict)

namespace Workspace

/-- The alternative at a place, with the matcher that it has kept. -/
def alternativeAt? (workspace : Workspace) : Place → Option HeldAlternative
  | .alone name => workspace.alternative? name
  | .declared schema label position => do
      let edition ← workspace.edition? schema
      let primitive ← edition.schema.primitive? label
      let definition ← primitive.alternatives.definitions[position]?
      some ⟨definition, (edition.matchersOf label).find? position⟩
  | .held name position => do
      let held ← workspace.primitive? name
      let definition ← held.primitive.alternatives.definitions[position]?
      some ⟨definition, held.matchers.find? position⟩

/-- The primitive at a home, with the matchers that it has kept. -/
def primitiveAt? (workspace : Workspace) : Home → Option HeldPrimitive
  | .declared schema label => do
      let edition ← workspace.edition? schema
      let primitive ← edition.schema.primitive? label
      some ⟨primitive, edition.matchersOf label⟩
  | .held name => workspace.primitive? name

/-- The matchers of a primitive are kept at its home. -/
def keepMatchers (workspace : Workspace) (matchers : Matchers) : Home → Workspace
  | .declared schema label =>
      match workspace.edition? schema with
      | none => workspace
      | some edition => workspace.putEdition schema (edition.keep label matchers)
  | .held name =>
      match workspace.primitive? name with
      | none => workspace
      | some held => workspace.putPrimitive name { held with matchers }

/-- The matcher of an alternative is kept at its place. -/
def keepMatcher (workspace : Workspace) (matcher : Option Matcher) : Place → Workspace
  | .alone name =>
      match workspace.alternative? name with
      | none => workspace
      | some held => workspace.putAlternative name { held with matcher }
  | .declared schema label position =>
      match workspace.primitiveAt? (.declared schema label) with
      | none => workspace
      | some held =>
          workspace.keepMatchers (held.matchers.keep position matcher) (.declared schema label)
  | .held name position =>
      match workspace.primitiveAt? (.held name) with
      | none => workspace
      | some held => workspace.keepMatchers (held.matchers.keep position matcher) (.held name)

/-- The answer to a request, and the workspace after it. -/
def perform (workspace : Workspace) (compiler : Regex.Compiler) : Request → Answer × Workspace
  | .newSchema name depthLimit => (.done, workspace.newSchema name depthLimit)
  | .addLine name line =>
      match workspace.edition? name with
      | none => (.missing, workspace)
      | some edition =>
          let (workspace, error) := workspace.addLine name edition line
          (.added error, workspace)
  | .addText name text =>
      match workspace.edition? name with
      | none => (.missing, workspace)
      | some edition =>
          let (workspace, error) := workspace.addText name edition text
          (.added error, workspace)
  | .load name text =>
      let (workspace, error) := workspace.load name text
      (.added error, workspace)
  | .hold name definition => (.done, workspace.hold name definition)
  | .holdPrimitive name primitive => (.done, workspace.putPrimitive name { primitive })
  | .copy place target =>
      match workspace.alternativeAt? place with
      | none => (.missing, workspace)
      | some held => (.done, workspace.copy held target)
  | .copyPrimitive home target =>
      match workspace.primitiveAt? home with
      | none => (.missing, workspace)
      | some held => (.done, workspace.putPrimitive target held)
  | .check place schema bound value =>
      match workspace.alternativeAt? place, workspace.edition? schema with
      | some held, some edition =>
          let (answer, matcher) :=
            edition.stamped.alternativeAccepts compiler held.matcher bound held.definition value
          (.accepted answer, workspace.keepMatcher matcher place)
      | _, _ => (.missing, workspace)
  | .validate home schema value =>
      match workspace.primitiveAt? home, workspace.edition? schema with
      | some held, some edition =>
          let (verdict, matchers) :=
            edition.stamped.validate compiler held.matchers held.primitive value
          (.verdict verdict, workspace.keepMatchers matchers home)
      | _, _ => (.missing, workspace)

/-- The answers to requests, each of which finds the workspace that the one before left. -/
def answers (workspace : Workspace) (compiler : Regex.Compiler) : List Request → List Answer
  | [] => []
  | request :: rest =>
      let (answer, workspace) := workspace.perform compiler request
      answer :: workspace.answers compiler rest

/-- The workspace that requests leave, one after another. -/
def after (workspace : Workspace) (compiler : Regex.Compiler) : List Request → Workspace
  | [] => workspace
  | request :: rest => (workspace.perform compiler request).2.after compiler rest

end Workspace

/-- What a workspace holds when no matcher is kept. -/
structure Holdings where
  schemas : List (Text × Schema) := []
  alternatives : List (Text × Text) := []
  primitives : List (Text × Primitive) := []

namespace Holdings

def schema? (holdings : Holdings) (name : Text) : Option Schema :=
  (Keyed.find? Prod.fst name holdings.schemas).map Prod.snd

def alternative? (holdings : Holdings) (name : Text) : Option Text :=
  (Keyed.find? Prod.fst name holdings.alternatives).map Prod.snd

def primitive? (holdings : Holdings) (name : Text) : Option Primitive :=
  (Keyed.find? Prod.fst name holdings.primitives).map Prod.snd

def putSchema (holdings : Holdings) (name : Text) (schema : Schema) : Holdings :=
  { holdings with schemas := Keyed.insert Prod.fst (name, schema) holdings.schemas }

def putAlternative (holdings : Holdings) (name definition : Text) : Holdings :=
  { holdings with alternatives := Keyed.insert Prod.fst (name, definition) holdings.alternatives }

def putPrimitive (holdings : Holdings) (name : Text) (primitive : Primitive) : Holdings :=
  { holdings with primitives := Keyed.insert Prod.fst (name, primitive) holdings.primitives }

def definitionAt? (holdings : Holdings) : Place → Option Text
  | .alone name => holdings.alternative? name
  | .declared schema label position => do
      let schema ← holdings.schema? schema
      let primitive ← schema.primitive? label
      primitive.alternatives.definitions[position]?
  | .held name position => do
      let primitive ← holdings.primitive? name
      primitive.alternatives.definitions[position]?

def primitiveAt? (holdings : Holdings) : Home → Option Primitive
  | .declared schema label => do
      let schema ← holdings.schema? schema
      schema.primitive? label
  | .held name => holdings.primitive? name

/-- The answer to a request, computed from the current definitions alone. -/
def perform (holdings : Holdings) (compiler : Regex.Compiler) : Request → Answer × Holdings
  | .newSchema name depthLimit => (.done, holdings.putSchema name { depthLimit })
  | .addLine name line =>
      match holdings.schema? name with
      | none => (.missing, holdings)
      | some schema =>
          let (schema, error) := schema.addLine line
          (.added error, holdings.putSchema name schema)
  | .addText name text =>
      match holdings.schema? name with
      | none => (.missing, holdings)
      | some schema =>
          let (schema, error) := schema.addText text
          (.added error, holdings.putSchema name schema)
  | .load name text =>
      match Schema.ofText text with
      | .error error => (.added (some error), holdings)
      | .ok schema => (.added none, holdings.putSchema name schema)
  | .hold name definition => (.done, holdings.putAlternative name definition)
  | .holdPrimitive name primitive => (.done, holdings.putPrimitive name primitive)
  | .copy place target =>
      match holdings.definitionAt? place with
      | none => (.missing, holdings)
      | some definition => (.done, holdings.putAlternative target definition)
  | .copyPrimitive home target =>
      match holdings.primitiveAt? home with
      | none => (.missing, holdings)
      | some primitive => (.done, holdings.putPrimitive target primitive)
  | .check place schema bound value =>
      match holdings.definitionAt? place, holdings.schema? schema with
      | some definition, some schema =>
          (.accepted (schema.alternativeAccepts compiler bound definition value), holdings)
      | _, _ => (.missing, holdings)
  | .validate home schema value =>
      match holdings.primitiveAt? home, holdings.schema? schema with
      | some primitive, some schema =>
          (.verdict (schema.validate compiler primitive value), holdings)
      | _, _ => (.missing, holdings)

def answers (holdings : Holdings) (compiler : Regex.Compiler) : List Request → List Answer
  | [] => []
  | request :: rest =>
      let (answer, holdings) := holdings.perform compiler request
      answer :: holdings.answers compiler rest

end Holdings

end GedcomGrammar
