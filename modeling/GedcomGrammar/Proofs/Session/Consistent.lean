/-
This file proves that the matchers of a workspace agree with the schemas that they serve.
-/

import GedcomGrammar.Proofs.Session.Editions
import GedcomGrammar.Session

namespace GedcomGrammar

section Definitions

variable (compiler : Regex.Compiler)

/-- A kept matcher decides like every schema under whose stamp it serves. -/
structure Sound (editions : List (Text × Edition)) (clock : Nat) (definition : Text)
    (matcher : Matcher) : Prop where
  past : matcher.stamp < clock
  fresh : matcher.stamp = 0 →
    Schema.matcher {} compiler matcher.bound definition = .ok matcher.pattern
  current : ∀ entry ∈ editions, entry.2.stamp = matcher.stamp →
    entry.2.schema.matcher compiler matcher.bound definition = .ok matcher.pattern

/-- The kept matchers of alternatives are sound, each for the alternative at its position. -/
def AllSound (editions : List (Text × Edition)) (clock : Nat) (definitions : List Text)
    (matchers : Matchers) : Prop :=
  ∀ kept ∈ matchers, ∀ definition, definitions[kept.1]? = some definition →
    Sound compiler editions clock definition kept.2

/-- An edition keeps sound matchers for the primitives that it declares. -/
def KeepsSound (editions : List (Text × Edition)) (clock : Nat) (edition : Edition) : Prop :=
  ∀ kept ∈ edition.matchers, ∀ primitive, edition.schema.primitive? kept.1 = some primitive →
    AllSound compiler editions clock primitive.alternatives.definitions kept.2

/-- A stamp tells what an edition defines, and stamp zero that it defines nothing. -/
structure Fits (editions : List (Text × Edition)) (clock : Nat) (edition : Edition) : Prop where
  past : edition.stamp < clock
  fresh : edition.stamp = 0 → edition.schema.elements = []
  alike : edition.stamp ≠ 0 → ∀ entry ∈ editions, entry.2.stamp = edition.stamp →
    Schema.Alike entry.2.schema edition.schema

/-- The stamp of an edition is zero, or one that an edition of the workspace has for the same. -/
def Known (editions : List (Text × Edition)) (edition : Edition) : Prop :=
  edition.stamp = 0 ∨ ∃ entry ∈ editions,
    entry.2.stamp = edition.stamp ∧ Schema.Alike entry.2.schema edition.schema

/-- Everything in a workspace is in step with its clock. -/
structure Consistent (workspace : Workspace) : Prop where
  started : 0 < workspace.clock
  editions : ∀ entry ∈ workspace.editions, Fits workspace.editions workspace.clock entry.2
  declared : ∀ entry ∈ workspace.editions,
    KeepsSound compiler workspace.editions workspace.clock entry.2
  alternatives : ∀ entry ∈ workspace.alternatives, ∀ matcher, entry.2.matcher = some matcher →
    Sound compiler workspace.editions workspace.clock entry.2.definition matcher
  primitives : ∀ entry ∈ workspace.primitives, AllSound compiler workspace.editions workspace.clock
    entry.2.primitive.alternatives.definitions entry.2.matchers

end Definitions

variable {compiler : Regex.Compiler} {editions : List (Text × Edition)} {clock finish : Nat}

theorem consistent_empty : Consistent compiler {} where
  started := by decide
  editions := by simp
  declared := by simp
  alternatives := by simp
  primitives := by simp

theorem known_of_mem {entry : Text × Edition} (member : entry ∈ editions) :
    Known editions entry.2 :=
  .inr ⟨entry, member, rfl, .refl _⟩

theorem fits_fresh (started : 0 < clock) (depthLimit : Nat) :
    Fits editions clock (.fresh depthLimit) where
  past := started
  fresh _ := rfl
  alike zero := absurd rfl zero

/-- The matcher that a schema gives is sound under the stamp of the schema. -/
theorem Fits.sound_matcher {edition : Edition} (fits : Fits editions clock edition)
    (others : ∀ entry ∈ editions, Fits editions clock entry.2) {bound : Nat} {definition : Text}
    {pattern : Pattern} (made : edition.schema.matcher compiler bound definition = .ok pattern) :
    Sound compiler editions clock definition ⟨edition.stamp, bound, pattern⟩ where
  past := fits.past
  fresh zero := by
    rw [← made, Schema.matcher_of_empty rfl (fits.fresh zero)]
  current entry member same := by
    by_cases zero : edition.stamp = 0
    · have empty := (others entry member).fresh (same.trans zero)
      rw [← made, Schema.matcher_of_empty empty (fits.fresh zero)]
    · rw [← made, (fits.alike zero entry member same).matcher]

/-- A sound matcher serves an edition whose stamp is known. -/
theorem Sound.serves {edition : Edition} {definition : Text} {matcher : Matcher}
    (sound : Sound compiler editions clock definition matcher) (fits : Fits editions clock edition)
    (known : Known editions edition) (same : edition.stamp = matcher.stamp) :
    edition.schema.matcher compiler matcher.bound definition = .ok matcher.pattern := by
  rcases known with zero | ⟨entry, member, sameEntry, alike⟩
  · rw [@Schema.matcher_of_empty edition.schema {} (fits.fresh zero) rfl]
    exact sound.fresh (same.symm.trans zero)
  · rw [← alike.matcher]
    exact sound.current entry member (sameEntry.trans same)

/-- A sound matcher stays so as time goes by. -/
theorem Sound.wait {definition : Text} {matcher : Matcher}
    (sound : Sound compiler editions clock definition matcher) (later : clock ≤ finish) :
    Sound compiler editions finish definition matcher :=
  ⟨sound.past.trans_le later, sound.fresh, sound.current⟩

theorem AllSound.wait {definitions : List Text} {matchers : Matchers}
    (sound : AllSound compiler editions clock definitions matchers) (later : clock ≤ finish) :
    AllSound compiler editions finish definitions matchers :=
  fun kept member definition found => (sound kept member definition found).wait later

theorem AllSound.nil (definitions : List Text) :
    AllSound compiler editions clock definitions [] := by
  simp [AllSound]

section Put

variable {base edition : Edition}

/-- A sound matcher stays sound when an edition ages. -/
theorem Sound.put {definition name : Text} {matcher : Matcher}
    (sound : Sound compiler editions clock definition matcher) (fits : Fits editions clock base)
    (known : Known editions base) (ages : Edition.Ages base clock edition finish) :
    Sound compiler (Keyed.insert Prod.fst (name, edition) editions) finish definition matcher where
  past := sound.past.trans_le ages.time
  fresh := sound.fresh
  current entry member same := by
    rcases Keyed.mem_insert member with rfl | old
    · rcases ages.stamp with ⟨kept, alike⟩ | ⟨later, _⟩
      · rw [← alike.matcher]
        exact sound.serves fits known (kept.symm.trans same)
      · have past := sound.past
        dsimp only at same
        omega
    · exact sound.current entry old same

theorem AllSound.put {definitions : List Text} {name : Text} {matchers : Matchers}
    (sound : AllSound compiler editions clock definitions matchers)
    (fits : Fits editions clock base) (known : Known editions base)
    (ages : Edition.Ages base clock edition finish) :
    AllSound compiler (Keyed.insert Prod.fst (name, edition) editions) finish definitions
      matchers :=
  fun kept member definition found => (sound kept member definition found).put fits known ages

/-- An edition fits in its own place as it ages. -/
theorem Fits.put_self {name : Text} (fits : Fits editions clock base)
    (others : ∀ entry ∈ editions, Fits editions clock entry.2)
    (ages : Edition.Ages base clock edition finish) (started : 0 < clock) :
    Fits (Keyed.insert Prod.fst (name, edition) editions) finish edition where
  past := by
    rcases ages.stamp with ⟨same, _⟩ | ⟨_, most⟩
    · rw [same]
      exact fits.past.trans_le ages.time
    · exact most
  fresh zero := by
    rcases ages.stamp with ⟨same, alike⟩ | ⟨least, _⟩
    · rw [← alike.elements]
      exact fits.fresh (same.symm.trans zero)
    · omega
  alike zero entry member sameStamp := by
    rcases Keyed.mem_insert member with rfl | old
    · exact .refl _
    · rcases ages.stamp with ⟨same, alike⟩ | ⟨least, _⟩
      · rw [same] at zero sameStamp
        exact (fits.alike zero entry old sameStamp).trans alike
      · have past := (others entry old).past
        omega

/-- Any other edition fits next to one that ages. -/
theorem Fits.put_other {name : Text} {entry : Text × Edition} (member : entry ∈ editions)
    (fits : Fits editions clock base) (others : ∀ entry ∈ editions, Fits editions clock entry.2)
    (ages : Edition.Ages base clock edition finish) :
    Fits (Keyed.insert Prod.fst (name, edition) editions) finish entry.2 where
  past := (others entry member).past.trans_le ages.time
  fresh := (others entry member).fresh
  alike zero other inserted sameStamp := by
    rcases Keyed.mem_insert inserted with rfl | old
    · rcases ages.stamp with ⟨same, alike⟩ | ⟨least, _⟩
      · have baseStamp : entry.2.stamp = base.stamp := sameStamp.symm.trans same
        rw [baseStamp] at zero
        exact ((fits.alike zero entry member baseStamp).trans alike).symm
      · have past := (others entry member).past
        dsimp only at sameStamp
        omega
    · exact (others entry member).alike zero other old sameStamp

end Put

/-- An edition keeps sound matchers as it evolves, since it drops those of new alternatives. -/
theorem KeepsSound.evolve {base edition : Edition} (sound : KeepsSound compiler editions clock base)
    (evolves : Edition.Evolves base clock edition finish) :
    KeepsSound compiler editions clock edition := by
  intro kept member primitive found
  obtain ⟨before, keeps⟩ := evolves.matchers kept member
  obtain ⟨old, declared, same⟩ := keeps primitive found
  rw [← same]
  exact sound kept before old declared

namespace Consistent

variable {workspace : Workspace}

/-- A workspace stays consistent when an edition of it ages, or a fresh one does. -/
theorem putEdition (consistent : Consistent compiler workspace) {base edition : Edition}
    (name : Text) (fits : Fits workspace.editions workspace.clock base)
    (known : Known workspace.editions base)
    (ages : Edition.Ages base workspace.clock edition finish)
    (sound : KeepsSound compiler workspace.editions workspace.clock edition) :
    Consistent compiler { workspace.putEdition name edition with clock := finish } where
  started := consistent.started.trans_le ages.time
  editions entry member := by
    rcases Keyed.mem_insert member with rfl | old
    · exact fits.put_self consistent.editions ages consistent.started
    · exact Fits.put_other old fits consistent.editions ages
  declared entry member kept inside primitive found := by
    rcases Keyed.mem_insert member with rfl | old
    · exact (sound kept inside primitive found).put fits known ages
    · exact (consistent.declared entry old kept inside primitive found).put fits known ages
  alternatives entry member matcher kept :=
    (consistent.alternatives entry member matcher kept).put fits known ages
  primitives entry member := (consistent.primitives entry member).put fits known ages

/-- Time alone changes nothing. -/
theorem wait (consistent : Consistent compiler workspace) (later : workspace.clock ≤ finish) :
    Consistent compiler { workspace with clock := finish } where
  started := consistent.started.trans_le later
  editions entry member :=
    have fits := consistent.editions entry member
    ⟨fits.past.trans_le later, fits.fresh, fits.alike⟩
  declared entry member kept inside primitive found :=
    (consistent.declared entry member kept inside primitive found).wait later
  alternatives entry member matcher kept :=
    (consistent.alternatives entry member matcher kept).wait later
  primitives entry member := (consistent.primitives entry member).wait later

theorem putAlternative (consistent : Consistent compiler workspace) (name : Text)
    {held : HeldAlternative}
    (sound : ∀ matcher, held.matcher = some matcher →
      Sound compiler workspace.editions workspace.clock held.definition matcher) :
    Consistent compiler (workspace.putAlternative name held) where
  started := consistent.started
  editions := consistent.editions
  declared := consistent.declared
  alternatives entry member := by
    rcases Keyed.mem_insert member with rfl | old
    · exact sound
    · exact consistent.alternatives entry old
  primitives := consistent.primitives

theorem putPrimitive (consistent : Consistent compiler workspace) (name : Text)
    {held : HeldPrimitive}
    (sound : AllSound compiler workspace.editions workspace.clock
      held.primitive.alternatives.definitions held.matchers) :
    Consistent compiler (workspace.putPrimitive name held) where
  started := consistent.started
  editions := consistent.editions
  declared := consistent.declared
  alternatives := consistent.alternatives
  primitives entry member := by
    rcases Keyed.mem_insert member with rfl | old
    · exact sound
    · exact consistent.primitives entry old

end Consistent

end GedcomGrammar
