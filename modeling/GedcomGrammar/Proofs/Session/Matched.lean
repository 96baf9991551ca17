/-
This file proves that sound matchers answer like the schema.
-/

import GedcomGrammar.Proofs.Session.Consistent

namespace GedcomGrammar

variable {compiler : Regex.Compiler} {editions : List (Text × Edition)} {clock : Nat}

namespace AllSound

variable {definitions : List Text} {matchers : Matchers} {position : Nat} {definition : Text}

/-- The matcher at a position is sound for the alternative there. -/
theorem find? (sound : AllSound compiler editions clock definitions matchers)
    (declared : definitions[position]? = some definition) {matcher : Matcher}
    (found : matchers.find? position = some matcher) :
    Sound compiler editions clock definition matcher := by
  obtain ⟨kept, first, same⟩ := Option.map_eq_some_iff.mp found
  have key : kept.1 = position := by simpa using List.find?_some first
  rw [← same]
  exact sound kept (List.mem_of_find?_eq_some first) definition (key ▸ declared)

/-- Another sound matcher may be kept. -/
theorem keep (sound : AllSound compiler editions clock definitions matchers)
    (declared : definitions[position]? = some definition) {kept : Option Matcher}
    (soundKept : ∀ matcher, kept = some matcher →
      Sound compiler editions clock definition matcher) :
    AllSound compiler editions clock definitions (matchers.keep position kept) := by
  cases kept with
  | none => exact sound
  | some matcher =>
      intro entry member other found
      rcases Keyed.mem_insert member with rfl | old
      · rw [Option.some.inj (found.symm.trans declared)]
        exact soundKept matcher rfl
      · exact sound entry old other found

end AllSound

/-- What was kept before and what a schema makes are both sound after a check. -/
theorem Fits.sound_kept {edition : Edition} (fits : Fits editions clock edition)
    (others : ∀ entry ∈ editions, Fits editions clock entry.2) {definition value : Text}
    {kept : Option Matcher} {bound : Nat}
    (sound : ∀ matcher, kept = some matcher → Sound compiler editions clock definition matcher) :
    ∀ matcher,
      (edition.stamped.alternativeAccepts compiler kept bound definition value).2 = some matcher →
      Sound compiler editions clock definition matcher := by
  unfold Stamped.alternativeAccepts
  split
  · exact sound
  · exact sound
  · split
    · exact sound
    · split
      · exact sound
      · rename_i pattern made
        rintro matcher ⟨⟩
        exact fits.sound_matcher others made

/-- A check with a sound matcher gives the answer of the schema. -/
theorem Fits.answer_alternative {edition : Edition} (fits : Fits editions clock edition)
    (known : Known editions edition) {definition value : Text} {kept : Option Matcher} {bound : Nat}
    (sound : ∀ matcher, kept = some matcher → Sound compiler editions clock definition matcher) :
    (edition.stamped.alternativeAccepts compiler kept bound definition value).1 =
      edition.schema.alternativeAccepts compiler bound definition value := by
  unfold Stamped.alternativeAccepts Schema.alternativeAccepts
  rcases Alternatives.spelling? definition with error | _ | spelling
  · rfl
  · dsimp only
    split
    · rename_i matcher served
      obtain ⟨same, serves⟩ := Option.filter_eq_some_iff.mp served
      simp only [Matcher.serves, Bool.and_eq_true, beq_iff_eq] at serves
      have made := (sound matcher same).serves fits known serves.1.symm
      rw [← serves.2, made]
      rfl
    · change _ = Except.map _ (edition.stamped.schema.matcher compiler bound definition)
      cases edition.stamped.schema.matcher compiler bound definition <;> rfl
  · rfl

/-- Checks of one alternative after another keep sound matchers and answer like the schema. -/
theorem Fits.answer_first {edition : Edition} (fits : Fits editions clock edition)
    (known : Known editions edition) (others : ∀ entry ∈ editions, Fits editions clock entry.2)
    {definitions : List Text} (bound : Nat) (value : Text) {rest : List Text} {position : Nat}
    (remain : definitions.drop position = rest) {matchers : Matchers}
    (sound : AllSound compiler editions clock definitions matchers) :
    (edition.stamped.firstAccepting compiler matchers bound value position rest).1 =
        edition.schema.firstAccepting compiler bound value rest ∧
      AllSound compiler editions clock definitions
        (edition.stamped.firstAccepting compiler matchers bound value position rest).2 := by
  induction rest generalizing position matchers with
  | nil => exact ⟨rfl, sound⟩
  | cons definition rest inductionHypothesis =>
      have declared : definitions[position]? = some definition := by
        rw [← Nat.add_zero position, ← List.getElem?_drop, remain]
        rfl
      have later : definitions.drop (position + 1) = rest := by
        rw [← List.drop_drop, remain]
        rfl
      have held {matcher : Matcher} (found : matchers.find? position = some matcher) :=
        sound.find? declared found
      have answer := @Fits.answer_alternative _ _ _ _ fits known definition value _ bound
        (fun _ => held)
      have kept := sound.keep declared
        (@Fits.sound_kept _ _ _ _ fits others definition value _ bound (fun _ => held))
      unfold Stamped.firstAccepting Schema.firstAccepting
      rw [← answer]
      generalize edition.stamped.alternativeAccepts compiler (matchers.find? position) bound
        definition value = checked at kept
      obtain ⟨checkedAnswer, keptMatcher⟩ := checked
      rcases checkedAnswer with error | _ | _
      · exact ⟨rfl, kept⟩
      · exact inductionHypothesis later kept
      · exact ⟨rfl, kept⟩

/-- A primitive with sound matchers is validated like by the schema alone. -/
theorem Fits.answer_primitive {edition : Edition} (fits : Fits editions clock edition)
    (known : Known editions edition) (others : ∀ entry ∈ editions, Fits editions clock entry.2)
    {primitive : Primitive} (value : Text) {matchers : Matchers}
    (sound : AllSound compiler editions clock primitive.alternatives.definitions matchers) :
    (edition.stamped.validate compiler matchers primitive value).1 =
        edition.schema.validate compiler primitive value ∧
      AllSound compiler editions clock primitive.alternatives.definitions
        (edition.stamped.validate compiler matchers primitive value).2 := by
  unfold Stamped.validate Schema.validate
  cases primitive.settled? value with
  | some verdict => exact ⟨rfl, sound⟩
  | none =>
      have first := fits.answer_first known others primitive.sizeMax value
        (List.drop_zero (l := primitive.alternatives.definitions)) sound
      exact ⟨congrArg (primitive.verdict value) first.1, first.2⟩

end GedcomGrammar
