/-
This file proves that the pattern of a primitive depends only on what the primitive reaches.
-/

import GedcomGrammar.Expansion
import GedcomGrammar.Proofs.Results
import GedcomGrammar.References

namespace GedcomGrammar

theorem Primitive.Mentions.names {primitive : Primitive} {name : Text}
    (mentions : primitive.Mentions name) : primitive.Names name :=
  mentions.2

/-- Primitives with one face name the same. -/
theorem Primitive.mentions_congr {primitive other : Primitive} (same : primitive.face = other.face)
    (name : Text) : primitive.Mentions name ↔ other.Mentions name := by
  have label : primitive.label = other.label := congrArg Prod.fst same
  have alternatives : primitive.alternatives = other.alternatives :=
    congrArg (fun face => face.2.2) same
  rw [Mentions, Mentions, label, alternatives]

/-- A cap bounds primitives with one face alike. -/
theorem Primitive.boundUnder_congr {primitive other : Primitive}
    (same : primitive.face = other.face) (cap : Option Nat) :
    primitive.boundUnder cap = other.boundUnder cap := by
  have sizeMax : primitive.sizeMax = other.sizeMax := congrArg (fun face => face.2.1) same
  unfold boundUnder
  rw [sizeMax]

namespace Schema

variable {first second : Schema} {names : Text → Prop} {bound : Nat}

/-- Names are closed when the declared primitives under them mention no others. -/
def Closed (schema : Schema) (names : Text → Prop) : Prop :=
  ∀ name target, names name → schema.primitive? name = some target →
    ∀ further, target.Mentions further → names further

theorem closed_reaches (schema : Schema) (primitive : Primitive) :
    schema.Closed (schema.Reaches primitive) :=
  fun _ _ reached found _ mentions => .beyond reached found mentions

/-- Under a name on which schemas agree, both declare a primitive with one face, or neither does. -/
theorem AgreeOn.cases (agree : AgreeOn first second names) {name : Text} (within : names name) :
    (first.primitive? name = none ∧ second.primitive? name = none) ∨
      ∃ target counterpart, first.primitive? name = some target ∧
        second.primitive? name = some counterpart ∧ target.face = counterpart.face := by
  have same := agree name within
  cases found : first.primitive? name with
  | none =>
      rw [found, Option.map_none, eq_comm, Option.map_eq_none_iff] at same
      exact .inl ⟨rfl, same⟩
  | some target =>
      rw [found, Option.map_some, eq_comm, Option.map_eq_some_iff] at same
      obtain ⟨counterpart, foundOther, face⟩ := same
      exact .inr ⟨target, counterpart, rfl, foundOther, face.symm⟩

theorem Closed.of_agreeOn (closed : first.Closed names) (agree : AgreeOn first second names) :
    second.Closed names := by
  intro name counterpart within found further mentions
  rcases agree.cases within with ⟨-, missing⟩ | ⟨target, other, declared, foundOther, face⟩
  · exact absurd (found.symm.trans missing) (by simp)
  · cases Option.some.inj (found.symm.trans foundOther)
    exact closed name target within declared further ((Primitive.mentions_congr face _).mpr mentions)

/-- Closed names with those of a primitive's own alternatives hold all that it reaches. -/
theorem Reaches.within {schema : Schema} {primitive : Primitive} {name : Text}
    (reached : schema.Reaches primitive name) (closed : schema.Closed names)
    (named : ∀ name, primitive.Names name → names name) : names name := by
  induction reached with
  | named names => exact named _ names
  | beyond _ found mentions inductionHypothesis =>
      exact closed _ _ inductionHypothesis found _ mentions

/-- A primitive reaches the same names in both of two schemas that agree on those in one. -/
theorem AgreeOn.reaches_iff {primitive : Primitive}
    (agree : AgreeOn first second (first.Reaches primitive)) (name : Text) :
    first.Reaches primitive name ↔ second.Reaches primitive name := by
  have closed := first.closed_reaches primitive
  have back (name : Text) (reached : second.Reaches primitive name) :
      first.Reaches primitive name :=
    reached.within (closed.of_agreeOn agree) fun _ named => .named named
  have agreeBack : AgreeOn second first (second.Reaches primitive) :=
    fun name reached => (agree name (back name reached)).symm
  have closedBack := (second.closed_reaches primitive).of_agreeOn agreeBack
  exact ⟨fun reached => reached.within closedBack fun _ named => .named named, back name⟩

section Expansion

variable {expand other : Primitive → Except PatternError Pattern}

/-- Two ways to expand primitives agree on what two schemas declare under some names. -/
def ExpandAlike (first second : Schema) (names : Text → Prop)
    (expand other : Primitive → Except PatternError Pattern) : Prop :=
  ∀ name target counterpart, names name → first.primitive? name = some target →
    second.primitive? name = some counterpart → target.face = counterpart.face →
    expand target = other counterpart

/-- A reference is a declared primitive, a leaf or a fault in both schemas. -/
theorem referencePattern_congr (agree : AgreeOn first second names)
    (alike : ExpandAlike first second names expand other) {name : Text} (within : names name) :
    first.referencePattern expand bound name = second.referencePattern other bound name := by
  unfold referencePattern
  rcases agree.cases within with ⟨missing, gone⟩ | ⟨target, counterpart, found, declared, face⟩
  · rw [missing, gone]
  · rw [found, declared]
    exact alike name target counterpart within found declared face

theorem definitionPattern_congr_of_references {definition : Text}
    (alike : ∀ components, Component.ofDefinition definition = .ok components →
      ∀ name, ⟨.primitive, name⟩ ∈ components →
        first.referencePattern expand bound name = second.referencePattern other bound name) :
    first.definitionPattern expand bound definition =
      second.definitionPattern other bound definition := by
  unfold definitionPattern
  split
  · rfl
  · rename_i components read
    have same : ∀ component ∈ components,
        first.componentPattern expand bound component =
          second.componentPattern other bound component := by
      intro component member
      obtain ⟨kind, value⟩ := component
      cases kind with
      | primitive => exact alike components read value member
      | term => rfl
      | tag => rfl
      | literal => rfl
    rw [mapM_congr same]

theorem definitionPattern_congr (agree : AgreeOn first second names)
    (alike : ExpandAlike first second names expand other) {definition : Text}
    (within : ∀ components, Component.ofDefinition definition = .ok components →
      ∀ name, ⟨.primitive, name⟩ ∈ components → names name) :
    first.definitionPattern expand bound definition =
      second.definitionPattern other bound definition :=
  definitionPattern_congr_of_references fun components read name member =>
    referencePattern_congr agree alike (within components read name member)

end Expansion

/--
Primitives with one face have one pattern in schemas that agree on closed names.
Each level opens one more reference, which the hypothesis for fewer levels covers.
-/
theorem primitivePattern_congr (limit : first.depthLimit = second.depthLimit)
    (agree : AgreeOn first second names) (closed : first.Closed names) (levels : Nat)
    (cap : Option Nat) {primitive other : Primitive} (same : primitive.face = other.face)
    (within : ∀ name, primitive.Mentions name → names name) :
    first.primitivePattern levels cap primitive = second.primitivePattern levels cap other := by
  induction levels generalizing cap primitive other with
  | zero => rw [primitivePattern, primitivePattern, limit]
  | succ levels inductionHypothesis =>
      have label : primitive.label = other.label := congrArg Prod.fst same
      have alternatives : primitive.alternatives = other.alternatives :=
        congrArg (fun face => face.2.2) same
      rw [primitivePattern, primitivePattern, ← Primitive.boundUnder_congr same, ← label,
        ← alternatives]
      split
      · rfl
      · rename_i composite
        have alike : ExpandAlike first second names
            (first.primitivePattern levels (some (primitive.boundUnder cap)))
            (second.primitivePattern levels (some (primitive.boundUnder cap))) :=
          fun name target counterpart inside found _ face =>
            inductionHypothesis _ face (closed name target inside found)
        rw [mapM_congr fun definition listed => definitionPattern_congr agree alike
          fun components read name member =>
            within name ⟨composite, definition, listed, components, read, member⟩]

theorem expandAlike_primitivePattern (limit : first.depthLimit = second.depthLimit)
    (agree : AgreeOn first second names) (closed : first.Closed names) (levels : Nat)
    (cap : Option Nat) :
    ExpandAlike first second names (first.primitivePattern levels cap)
      (second.primitivePattern levels cap) :=
  fun name target _ inside found _ face =>
    primitivePattern_congr limit agree closed levels cap face (closed name target inside found)

end Schema

end GedcomGrammar
