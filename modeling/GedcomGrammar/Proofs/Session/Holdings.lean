/-
This file proves what a workspace holds besides its matchers.
-/

import GedcomGrammar.Proofs.Keyed
import GedcomGrammar.Session

namespace GedcomGrammar

namespace Workspace

/-- What a workspace holds besides matchers, stamps and its clock. -/
def holdings (workspace : Workspace) : Holdings where
  schemas := workspace.editions.map fun entry => (entry.1, entry.2.schema)
  alternatives := workspace.alternatives.map fun entry => (entry.1, entry.2.definition)
  primitives := workspace.primitives.map fun entry => (entry.1, entry.2.primitive)

variable (workspace : Workspace)

theorem schema?_holdings (name : Text) :
    workspace.holdings.schema? name = (workspace.edition? name).map Edition.schema :=
  Keyed.find?_map_values Edition.schema name workspace.editions

theorem alternative?_holdings (name : Text) :
    workspace.holdings.alternative? name =
      (workspace.alternative? name).map HeldAlternative.definition :=
  Keyed.find?_map_values HeldAlternative.definition name workspace.alternatives

theorem primitive?_holdings (name : Text) :
    workspace.holdings.primitive? name =
      (workspace.primitive? name).map HeldPrimitive.primitive :=
  Keyed.find?_map_values HeldPrimitive.primitive name workspace.primitives

theorem holdings_putEdition (name : Text) (edition : Edition) :
    (workspace.putEdition name edition).holdings =
      workspace.holdings.putSchema name edition.schema := by
  have schemas := Keyed.insert_map_values Edition.schema name edition workspace.editions
  rw [holdings, putEdition, schemas]
  rfl

theorem holdings_putAlternative (name : Text) (held : HeldAlternative) :
    (workspace.putAlternative name held).holdings =
      workspace.holdings.putAlternative name held.definition := by
  have alternatives :=
    Keyed.insert_map_values HeldAlternative.definition name held workspace.alternatives
  rw [holdings, putAlternative, alternatives]
  rfl

theorem holdings_putPrimitive (name : Text) (held : HeldPrimitive) :
    (workspace.putPrimitive name held).holdings =
      workspace.holdings.putPrimitive name held.primitive := by
  have primitives :=
    Keyed.insert_map_values HeldPrimitive.primitive name held workspace.primitives
  rw [holdings, putPrimitive, primitives]
  rfl

/-- Without matchers the same alternative is at every place. -/
theorem definitionAt?_holdings (place : Place) :
    workspace.holdings.definitionAt? place =
      (workspace.alternativeAt? place).map HeldAlternative.definition := by
  cases place with
  | alone name => exact workspace.alternative?_holdings name
  | declared schema label position =>
      simp only [Holdings.definitionAt?, alternativeAt?, schema?_holdings]
      cases workspace.edition? schema with
      | none => rfl
      | some edition =>
          change (edition.schema.primitive? label >>= _) =
            (edition.schema.primitive? label >>= _).map _
          cases edition.schema.primitive? label with
          | none => rfl
          | some primitive =>
              change primitive.alternatives.definitions[position]? =
                (primitive.alternatives.definitions[position]? >>= _).map _
              cases primitive.alternatives.definitions[position]? <;> rfl
  | held name position =>
      simp only [Holdings.definitionAt?, alternativeAt?, primitive?_holdings]
      cases workspace.primitive? name with
      | none => rfl
      | some held =>
          change held.primitive.alternatives.definitions[position]? =
            (held.primitive.alternatives.definitions[position]? >>= _).map _
          cases held.primitive.alternatives.definitions[position]? <;> rfl

/-- Without matchers the same primitive is at every home. -/
theorem primitiveAt?_holdings (home : Home) :
    workspace.holdings.primitiveAt? home =
      (workspace.primitiveAt? home).map HeldPrimitive.primitive := by
  cases home with
  | declared schema label =>
      simp only [Holdings.primitiveAt?, primitiveAt?, schema?_holdings]
      cases workspace.edition? schema with
      | none => rfl
      | some edition =>
          change edition.schema.primitive? label = (edition.schema.primitive? label >>= _).map _
          cases edition.schema.primitive? label <;> rfl
  | held name => exact workspace.primitive?_holdings name

/-- To keep other matchers changes nothing that is held. -/
theorem holdings_keepMatchers (matchers : Matchers) (home : Home) :
    (workspace.keepMatchers matchers home).holdings = workspace.holdings := by
  cases home with
  | declared schema label =>
      simp only [keepMatchers]
      split
      · rfl
      · rename_i edition found
        have known := workspace.schema?_holdings schema
        rw [found] at known
        rw [holdings_putEdition]
        exact congrArg (fun schemas => { workspace.holdings with schemas })
          (Keyed.insert_of_value known)
  | held name =>
      simp only [keepMatchers]
      split
      · rfl
      · rename_i held found
        have known := workspace.primitive?_holdings name
        rw [found] at known
        rw [holdings_putPrimitive]
        exact congrArg (fun primitives => { workspace.holdings with primitives })
          (Keyed.insert_of_value known)

theorem holdings_keepMatcher (matcher : Option Matcher) (place : Place) :
    (workspace.keepMatcher matcher place).holdings = workspace.holdings := by
  cases place with
  | alone name =>
      simp only [keepMatcher]
      split
      · rfl
      · rename_i held found
        have known := workspace.alternative?_holdings name
        rw [found] at known
        rw [holdings_putAlternative]
        exact congrArg (fun alternatives => { workspace.holdings with alternatives })
          (Keyed.insert_of_value known)
  | declared schema label position =>
      simp only [keepMatcher]
      split
      · rfl
      · exact holdings_keepMatchers _ _ _
  | held name position =>
      simp only [keepMatcher]
      split
      · rfl
      · exact holdings_keepMatchers _ _ _

end Workspace

end GedcomGrammar
