/-
This file proves that kept matchers never change an answer.
-/

import GedcomGrammar.Proofs.Session.Holdings
import GedcomGrammar.Proofs.Session.Places

namespace GedcomGrammar

/-- A workspace takes a request like what it holds without matchers, and stays consistent. -/
structure Agrees (compiler : Regex.Compiler) (taken : Answer × Workspace)
    (expected : Answer × Holdings) : Prop where
  answer : taken.1 = expected.1
  holdings : taken.2.holdings = expected.2
  consistent : Consistent compiler taken.2

namespace Agrees

variable {compiler : Regex.Compiler} {workspace : Workspace}

theorem newSchema (consistent : Consistent compiler workspace) (name : Text) (depthLimit : Nat) :
    Agrees compiler (workspace.perform compiler (.newSchema name depthLimit))
      (workspace.holdings.perform compiler (.newSchema name depthLimit)) :=
  ⟨rfl, workspace.holdings_putEdition name (.fresh depthLimit),
    consistent.evolve_fresh name (.refl (.fresh depthLimit) workspace.clock)⟩

theorem addLine (consistent : Consistent compiler workspace) (name line : Text) :
    Agrees compiler (workspace.perform compiler (.addLine name line))
      (workspace.holdings.perform compiler (.addLine name line)) := by
  simp only [Workspace.perform, Holdings.perform, Workspace.schema?_holdings]
  cases found : workspace.edition? name with
  | none => exact ⟨rfl, rfl, consistent⟩
  | some edition =>
      have taken := edition.addLine_schema workspace.clock line
      simp only [Option.map_some, ← taken]
      exact ⟨rfl, workspace.holdings_putEdition name _,
        consistent.evolve found (.addLine edition workspace.clock line)⟩

theorem addText (consistent : Consistent compiler workspace) (name text : Text) :
    Agrees compiler (workspace.perform compiler (.addText name text))
      (workspace.holdings.perform compiler (.addText name text)) := by
  simp only [Workspace.perform, Holdings.perform, Workspace.schema?_holdings]
  cases found : workspace.edition? name with
  | none => exact ⟨rfl, rfl, consistent⟩
  | some edition =>
      have taken := edition.addText_schema workspace.clock text
      simp only [Option.map_some, ← taken]
      exact ⟨rfl, workspace.holdings_putEdition name _,
        consistent.evolve found (.addText edition workspace.clock text)⟩

theorem load (consistent : Consistent compiler workspace) (name text : Text) :
    Agrees compiler (workspace.perform compiler (.load name text))
      (workspace.holdings.perform compiler (.load name text)) := by
  have taken := (Edition.fresh ({} : Schema).depthLimit).addText_schema workspace.clock text
  have evolves :=
    Edition.Evolves.addText (.fresh ({} : Schema).depthLimit) workspace.clock text
  have schema : (Edition.fresh ({} : Schema).depthLimit).schema = {} := rfl
  rw [schema] at taken
  simp only [Workspace.perform, Holdings.perform, Workspace.load, Schema.ofText, ← taken]
  generalize (Edition.fresh ({} : Schema).depthLimit).addText workspace.clock text = result
    at evolves ⊢
  obtain ⟨⟨loaded, clock⟩, error⟩ := result
  cases error with
  | none =>
      exact ⟨rfl, workspace.holdings_putEdition name loaded, consistent.evolve_fresh name evolves⟩
  | some error => exact ⟨rfl, rfl, consistent.wait evolves.time⟩

theorem copy (consistent : Consistent compiler workspace) (place : Place) (target : Text) :
    Agrees compiler (workspace.perform compiler (.copy place target))
      (workspace.holdings.perform compiler (.copy place target)) := by
  simp only [Workspace.perform, Holdings.perform, Workspace.definitionAt?_holdings]
  cases found : workspace.alternativeAt? place with
  | none => exact ⟨rfl, rfl, consistent⟩
  | some held =>
      exact ⟨rfl, workspace.holdings_putAlternative target held, consistent.putAlternative target
        fun matcher kept => consistent.sound_alternativeAt found kept⟩

theorem copyPrimitive (consistent : Consistent compiler workspace) (home : Home) (target : Text) :
    Agrees compiler (workspace.perform compiler (.copyPrimitive home target))
      (workspace.holdings.perform compiler (.copyPrimitive home target)) := by
  simp only [Workspace.perform, Holdings.perform, Workspace.primitiveAt?_holdings]
  cases found : workspace.primitiveAt? home with
  | none => exact ⟨rfl, rfl, consistent⟩
  | some held =>
      exact ⟨rfl, workspace.holdings_putPrimitive target held,
        consistent.putPrimitive target (consistent.sound_primitiveAt found)⟩

theorem check (consistent : Consistent compiler workspace) (place : Place) (schema : Text)
    (bound : Nat) (value : Text) :
    Agrees compiler (workspace.perform compiler (.check place schema bound value))
      (workspace.holdings.perform compiler (.check place schema bound value)) := by
  simp only [Workspace.perform, Holdings.perform, Workspace.definitionAt?_holdings,
    Workspace.schema?_holdings]
  cases found : workspace.alternativeAt? place with
  | none => exact ⟨rfl, rfl, consistent⟩
  | some held =>
      cases foundEdition : workspace.edition? schema with
      | none => exact ⟨rfl, rfl, consistent⟩
      | some edition =>
          have fits := consistent.fits foundEdition
          have sound (matcher : Matcher) (kept : held.matcher = some matcher) :=
            consistent.sound_alternativeAt found kept
          have answer := @Fits.answer_alternative _ _ _ _ fits (Consistent.known foundEdition) _
            value _ bound sound
          exact ⟨congrArg Answer.accepted answer, workspace.holdings_keepMatcher _ _,
            consistent.keepMatcher found (fits.sound_kept consistent.editions sound)⟩

theorem validate (consistent : Consistent compiler workspace) (home : Home) (schema value : Text) :
    Agrees compiler (workspace.perform compiler (.validate home schema value))
      (workspace.holdings.perform compiler (.validate home schema value)) := by
  simp only [Workspace.perform, Holdings.perform, Workspace.primitiveAt?_holdings,
    Workspace.schema?_holdings]
  cases found : workspace.primitiveAt? home with
  | none => exact ⟨rfl, rfl, consistent⟩
  | some held =>
      cases foundEdition : workspace.edition? schema with
      | none => exact ⟨rfl, rfl, consistent⟩
      | some edition =>
          have checked := (consistent.fits foundEdition).answer_primitive
            (Consistent.known foundEdition) consistent.editions value
            (consistent.sound_primitiveAt found)
          exact ⟨congrArg Answer.verdict checked.1, workspace.holdings_keepMatchers _ _,
            consistent.keepMatchers found checked.2⟩

/-- Every request is answered from what is held. -/
theorem perform (consistent : Consistent compiler workspace) (request : Request) :
    Agrees compiler (workspace.perform compiler request)
      (workspace.holdings.perform compiler request) := by
  cases request with
  | newSchema name depthLimit => exact newSchema consistent name depthLimit
  | addLine name line => exact addLine consistent name line
  | addText name text => exact addText consistent name text
  | load name text => exact load consistent name text
  | hold name definition =>
      exact ⟨rfl, workspace.holdings_putAlternative name { definition },
        consistent.putAlternative name (by simp)⟩
  | holdPrimitive name primitive =>
      exact ⟨rfl, workspace.holdings_putPrimitive name { primitive },
        consistent.putPrimitive name (.nil _)⟩
  | copy place target => exact copy consistent place target
  | copyPrimitive home target => exact copyPrimitive consistent home target
  | check place schema bound value => exact check consistent place schema bound value
  | validate home schema value => exact validate consistent home schema value

end Agrees

/-- A consistent workspace answers like what it holds without matchers. -/
theorem Consistent.answers {compiler : Regex.Compiler} {workspace : Workspace}
    (consistent : Consistent compiler workspace) (requests : List Request) :
    workspace.answers compiler requests = workspace.holdings.answers compiler requests := by
  induction requests generalizing workspace with
  | nil => rfl
  | cons request rest inductionHypothesis =>
      have agrees := Agrees.perform consistent request
      have later := inductionHypothesis agrees.consistent
      rw [agrees.holdings] at later
      exact congrArg₂ List.cons agrees.answer later

/-- Requests leave a consistent workspace. -/
theorem Consistent.after {compiler : Regex.Compiler} {workspace : Workspace}
    (consistent : Consistent compiler workspace) (requests : List Request) :
    Consistent compiler (workspace.after compiler requests) := by
  induction requests generalizing workspace with
  | nil => exact consistent
  | cons request rest inductionHypothesis =>
      exact inductionHypothesis (Agrees.perform consistent request).consistent

/-- Whatever is asked in whatever order, every answer is that of the current definitions. -/
theorem Workspace.answers_eq_holdings (compiler : Regex.Compiler) (requests : List Request) :
    ({} : Workspace).answers compiler requests = ({} : Holdings).answers compiler requests :=
  consistent_empty.answers requests

end GedcomGrammar
