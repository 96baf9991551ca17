/-
This file proves that a workspace stays consistent when it keeps sound matchers.
-/

import GedcomGrammar.Proofs.Session.Matched

namespace GedcomGrammar

variable {compiler : Regex.Compiler} {workspace : Workspace}

/-- An alternative is alone under a name, or a primitive lists it and keeps its matcher. -/
theorem Workspace.alternativeAt?_cases {place : Place} {held : HeldAlternative}
    (found : workspace.alternativeAt? place = some held) :
    (∃ name, place = .alone name ∧ workspace.alternative? name = some held) ∨
      ∃ home position primitive, workspace.primitiveAt? home = some primitive ∧
        primitive.primitive.alternatives.definitions[position]? = some held.definition ∧
        primitive.matchers.find? position = held.matcher ∧
        ∀ matcher, workspace.keepMatcher matcher place =
          workspace.keepMatchers (primitive.matchers.keep position matcher) home := by
  cases place with
  | alone name => exact .inl ⟨name, rfl, found⟩
  | declared schema label position =>
      obtain ⟨edition, foundEdition, rest⟩ := Option.bind_eq_some_iff.mp found
      obtain ⟨primitive, declared, rest⟩ := Option.bind_eq_some_iff.mp rest
      obtain ⟨definition, listed, ⟨⟩⟩ := Option.bind_eq_some_iff.mp rest
      have lists : workspace.primitiveAt? (.declared schema label) =
          some ⟨primitive, edition.matchersOf label⟩ := by
        simp [primitiveAt?, foundEdition, declared]
      refine .inr ⟨_, position, _, lists, listed, rfl, fun matcher => ?_⟩
      simp only [keepMatcher, lists]
  | held name position =>
      obtain ⟨primitive, foundPrimitive, rest⟩ := Option.bind_eq_some_iff.mp found
      obtain ⟨definition, listed, ⟨⟩⟩ := Option.bind_eq_some_iff.mp rest
      have lists : workspace.primitiveAt? (.held name) = some primitive := foundPrimitive
      refine .inr ⟨_, position, _, lists, listed, rfl, fun matcher => ?_⟩
      simp only [keepMatcher, lists]

namespace Consistent

theorem fits (consistent : Consistent compiler workspace) {name : Text} {edition : Edition}
    (found : workspace.edition? name = some edition) :
    Fits workspace.editions workspace.clock edition :=
  consistent.editions _ (Keyed.mem_of_value found)

theorem known {name : Text} {edition : Edition} (found : workspace.edition? name = some edition) :
    Known workspace.editions edition :=
  known_of_mem (Keyed.mem_of_value found)

/-- The matchers of a primitive are sound wherever it is. -/
theorem sound_primitiveAt (consistent : Consistent compiler workspace) {home : Home}
    {held : HeldPrimitive} (found : workspace.primitiveAt? home = some held) :
    AllSound compiler workspace.editions workspace.clock held.primitive.alternatives.definitions
      held.matchers := by
  cases home with
  | held name => exact consistent.primitives _ (Keyed.mem_of_value found)
  | declared schema label =>
      obtain ⟨edition, foundEdition, rest⟩ := Option.bind_eq_some_iff.mp found
      obtain ⟨primitive, declared, ⟨⟩⟩ := Option.bind_eq_some_iff.mp rest
      dsimp only [Edition.matchersOf]
      cases kept : (Keyed.find? Prod.fst label edition.matchers).map Prod.snd with
      | none => exact .nil _
      | some matchers =>
          exact consistent.declared _ (Keyed.mem_of_value foundEdition) _
            (Keyed.mem_of_value kept) primitive declared

/-- The matcher of an alternative is sound wherever it is. -/
theorem sound_alternativeAt (consistent : Consistent compiler workspace) {place : Place}
    {held : HeldAlternative} (found : workspace.alternativeAt? place = some held)
    {matcher : Matcher} (kept : held.matcher = some matcher) :
    Sound compiler workspace.editions workspace.clock held.definition matcher := by
  rcases Workspace.alternativeAt?_cases found with
    ⟨name, -, alone⟩ | ⟨home, position, primitive, lists, listed, same, -⟩
  · exact consistent.alternatives _ (Keyed.mem_of_value alone) matcher kept
  · exact (consistent.sound_primitiveAt lists).find? listed (same.trans kept)

/-- Other sound matchers may be kept for a primitive. -/
theorem keepMatchers (consistent : Consistent compiler workspace) {home : Home}
    {held : HeldPrimitive} (found : workspace.primitiveAt? home = some held) {matchers : Matchers}
    (sound : AllSound compiler workspace.editions workspace.clock
      held.primitive.alternatives.definitions matchers) :
    Consistent compiler (workspace.keepMatchers matchers home) := by
  cases home with
  | held name =>
      simp only [Workspace.keepMatchers]
      split
      · exact consistent
      · rename_i same
        rw [← Option.some.inj (found.symm.trans same)]
        exact consistent.putPrimitive name sound
  | declared schema label =>
      obtain ⟨edition, foundEdition, rest⟩ := Option.bind_eq_some_iff.mp found
      obtain ⟨primitive, declared, ⟨⟩⟩ := Option.bind_eq_some_iff.mp rest
      simp only [Workspace.keepMatchers, foundEdition]
      refine consistent.putEdition schema (consistent.fits foundEdition) (known foundEdition)
        ⟨le_rfl, .inl ⟨rfl, .refl _⟩⟩ ?_
      intro kept member other declaredOther
      rcases Keyed.mem_insert member with rfl | old
      · rw [Option.some.inj (declaredOther.symm.trans declared)]
        exact sound
      · exact consistent.declared _ (Keyed.mem_of_value foundEdition) kept old other declaredOther

/-- Another sound matcher may be kept for an alternative. -/
theorem keepMatcher (consistent : Consistent compiler workspace) {place : Place}
    {held : HeldAlternative} (found : workspace.alternativeAt? place = some held)
    {matcher : Option Matcher}
    (sound : ∀ kept, matcher = some kept →
      Sound compiler workspace.editions workspace.clock held.definition kept) :
    Consistent compiler (workspace.keepMatcher matcher place) := by
  rcases Workspace.alternativeAt?_cases found with
    ⟨name, rfl, alone⟩ | ⟨home, position, primitive, lists, listed, -, keeps⟩
  · simp only [Workspace.keepMatcher, alone]
    exact consistent.putAlternative name sound
  · rw [keeps]
    exact consistent.keepMatchers lists ((consistent.sound_primitiveAt lists).keep listed sound)

/-- An edition may take lines. -/
theorem evolve (consistent : Consistent compiler workspace) {name : Text} {base edition : Edition}
    {finish : Nat} (found : workspace.edition? name = some base)
    (evolves : Edition.Evolves base workspace.clock edition finish) :
    Consistent compiler { workspace.putEdition name edition with clock := finish } :=
  consistent.putEdition name (consistent.fits found) (known found) evolves.toAges
    (KeepsSound.evolve (consistent.declared _ (Keyed.mem_of_value found)) evolves)

/-- A fresh schema may take lines under any name. -/
theorem evolve_fresh (consistent : Consistent compiler workspace) (name : Text)
    {depthLimit finish : Nat} {edition : Edition}
    (evolves : Edition.Evolves (.fresh depthLimit) workspace.clock edition finish) :
    Consistent compiler { workspace.putEdition name edition with clock := finish } :=
  have sound : KeepsSound compiler workspace.editions workspace.clock (.fresh depthLimit) := by
    simp [KeepsSound, Edition.fresh]
  consistent.putEdition name (fits_fresh consistent.started depthLimit) (.inl rfl) evolves.toAges
    (sound.evolve evolves)

end Consistent

end GedcomGrammar
