/-
This file proves that validation depends only on what a primitive reaches.
-/

import GedcomGrammar.Proofs.Expansion.Grounded
import GedcomGrammar.Proofs.Expansion.Reach
import GedcomGrammar.Proofs.Session.Answers

namespace GedcomGrammar

namespace Schema

variable {first second : Schema} {compiler : Regex.Compiler} {names : Text → Prop} {bound : Nat}
  {definition value : Text}

/-- Every reference in a definition is to one of some names. -/
def Confined (names : Text → Prop) (definition : Text) : Prop :=
  ∀ components, Component.ofDefinition definition = .ok components →
    ∀ name, ⟨.primitive, name⟩ ∈ components → names name

/-- The alternatives are tried in the same order, up to the same one. -/
theorem firstAccepting_congr_of_accepts {definitions : List Text}
    (same : ∀ definition ∈ definitions, first.alternativeAccepts compiler bound definition value =
      second.alternativeAccepts compiler bound definition value) :
    first.firstAccepting compiler bound value definitions =
      second.firstAccepting compiler bound value definitions := by
  induction definitions with
  | nil => rfl
  | cons definition rest inductionHypothesis =>
      obtain ⟨here, later⟩ := List.forall_mem_cons.mp same
      rw [firstAccepting, firstAccepting, here, inductionHypothesis later]

section Alternatives

variable (limit : first.depthLimit = second.depthLimit) (agree : AgreeOn first second names)
  (closed : first.Closed names)

include limit agree closed

theorem alternativePattern_congr (confined : Confined names definition) :
    first.alternativePattern bound definition = second.alternativePattern bound definition := by
  unfold alternativePattern levels
  rw [← limit]
  exact definitionPattern_congr agree
    (expandAlike_primitivePattern limit agree closed _ (some bound)) confined

theorem alternativeAccepts_congr (confined : Confined names definition) :
    first.alternativeAccepts compiler bound definition value =
      second.alternativeAccepts compiler bound definition value := by
  unfold alternativeAccepts matcher
  rw [@alternativePattern_congr _ _ _ bound _ limit agree closed confined]

theorem firstAccepting_congr {definitions : List Text}
    (confined : ∀ definition ∈ definitions, Confined names definition) :
    first.firstAccepting compiler bound value definitions =
      second.firstAccepting compiler bound value definitions :=
  firstAccepting_congr_of_accepts fun _ listed =>
    alternativeAccepts_congr limit agree closed (confined _ listed)

end Alternatives

theorem confined_of_listed {primitive : Primitive}
    (listed : definition ∈ primitive.alternatives.definitions) :
    Confined (first.Reaches primitive) definition :=
  fun components read _ member => .named ⟨definition, listed, components, read, member⟩

section Reach

variable {primitive : Primitive} (limit : first.depthLimit = second.depthLimit)
  (agree : AgreeOn first second (first.Reaches primitive))

include limit agree

theorem validate_congr (compiler : Regex.Compiler) (value : Text) :
    first.validate compiler primitive value = second.validate compiler primitive value := by
  unfold validate
  rw [firstAccepting_congr limit agree (first.closed_reaches primitive)
    fun _ listed => confined_of_listed listed]

theorem pattern_congr (cap : Option Nat) :
    first.pattern primitive cap = second.pattern primitive cap := by
  unfold pattern levels
  rw [← limit]
  exact primitivePattern_congr limit agree (first.closed_reaches primitive) _ cap rfl
    fun _ mentions => .named mentions.names

end Reach

/-- Of a reached name only the face of the primitive under it is seen. -/
theorem agreeOn_insert {schema : Schema} {element : Element}
    (harmless : ∀ target, element = .primitive target → names target.label →
      (schema.primitive? target.label).map Primitive.face = some target.face) :
    AgreeOn schema (schema.insert element) names := by
  intro name within
  by_cases own : element.key = (.primitive, name)
  · cases element with
    | primitive target =>
        have label : target.label = name := congrArg Prod.snd own
        subst label
        rw [harmless target rfl within, primitive?_insert_self, Option.map_some]
    | tag content => exact absurd (congrArg Prod.fst own) (by simp [Element.key, Element.kind])
    | struct content => exact absurd (congrArg Prod.fst own) (by simp [Element.key, Element.kind])
  · rw [primitive?_insert_of_ne own]

/--
A declaration makes no difference to a primitive when it is a tag or a structure, is not reached,
or leaves the label, the maximum size and the alternatives of a reached primitive.
-/
theorem results_insert {schema : Schema} {primitive : Primitive} {element : Element}
    (harmless : ∀ target, element = .primitive target → schema.Reaches primitive target.label →
      (schema.primitive? target.label).map Primitive.face = some target.face) :
    (∀ compiler value, (schema.insert element).validate compiler primitive value =
        schema.validate compiler primitive value) ∧
      ∀ cap, (schema.insert element).pattern primitive cap = schema.pattern primitive cap := by
  have agree : AgreeOn schema (schema.insert element) (schema.Reaches primitive) :=
    agreeOn_insert harmless
  have limit : schema.depthLimit = (schema.insert element).depthLimit := rfl
  constructor
  · intro compiler value
    exact (validate_congr limit agree compiler value).symm
  · intro cap
    exact (pattern_congr limit agree cap).symm

end Schema

/-- A workspace has a primitive at a home and a schema under a name. -/
structure Workspace.Presents (workspace : Workspace) (home : Home) (primitive : Primitive)
    (name : Text) (schema : Schema) : Prop where
  primitive : (workspace.primitiveAt? home).map HeldPrimitive.primitive = some primitive
  schema : workspace.schema? name = some schema

theorem Workspace.Presents.answer {workspace : Workspace} {home : Home} {primitive : Primitive}
    {name : Text} {schema : Schema} (presents : workspace.Presents home primitive name schema)
    {compiler : Regex.Compiler} (consistent : Consistent compiler workspace) (value : Text) :
    (workspace.perform compiler (.validate home name value)).1 =
      .verdict (schema.validate compiler primitive value) := by
  have held : workspace.holdings.primitiveAt? home = some primitive :=
    (workspace.primitiveAt?_holdings home).trans presents.primitive
  have found : workspace.holdings.schema? name = some schema :=
    (workspace.schema?_holdings name).trans presents.schema
  rw [(Agrees.perform consistent _).answer, Holdings.perform, held, found]

namespace Schema

/--
Schemas with one depth limit that agree on what a primitive reaches give the same results for it:
the same verdict on every value and, under every cap, the same pattern or the same error.
The matchers that earlier requests left behind make no difference either.
-/
theorem results_congr (compiler : Regex.Compiler) (first second : Schema) (primitive : Primitive)
    (limit : first.depthLimit = second.depthLimit)
    (agree : AgreeOn first second (first.Reaches primitive)) :
    (∀ name, first.Reaches primitive name ↔ second.Reaches primitive name) ∧
      (∀ value, first.validate compiler primitive value =
        second.validate compiler primitive value) ∧
      (∀ cap, first.pattern primitive cap = second.pattern primitive cap ∧
        (first.pattern primitive cap).map Pattern.anchoredText =
          (second.pattern primitive cap).map Pattern.anchoredText ∧
        (first.pattern primitive cap).map Pattern.text =
          (second.pattern primitive cap).map Pattern.text) ∧
      ∀ (requests others : List Request) (home place : Home) (name label value : Text),
        (({} : Workspace).after compiler requests).Presents home primitive name first →
        (({} : Workspace).after compiler others).Presents place primitive label second →
        ((({} : Workspace).after compiler requests).perform compiler
            (.validate home name value)).1 =
          ((({} : Workspace).after compiler others).perform compiler
            (.validate place label value)).1 := by
  refine ⟨agree.reaches_iff, validate_congr limit agree compiler, fun cap => ?_, ?_⟩
  · rw [pattern_congr limit agree cap]
    exact ⟨rfl, rfl, rfl⟩
  · intro requests others home place name label value presents shown
    rw [presents.answer (consistent_empty.after requests),
      shown.answer (consistent_empty.after others), validate_congr limit agree compiler]

/-- A primitive that refers to another, and this one to a leaf that nothing declares. -/
def ageGrammar : Text :=
  Text.joinWith ['\n'] ["AGE:= \x7bSize=1:9\x7d".toList, "[<YEARS>]".toList,
    "YEARS:= \x7bSize=1:4\x7d".toList, "[<NUMBER>y]".toList]

/-- The second primitive has another minimum size here, and stands among other definitions. -/
def wideGrammar : Text :=
  Text.joinWith ['\n'] ["AGE_OF:= \x7bSize=1:9\x7d".toList, "[<YEARS>y]".toList,
    "AGE \x7bAGE_OF\x7d:=".toList, "YEARS:=".toList, "n AGE <AGE> \x7b0:1\x7d".toList,
    "YEARS:= \x7bSize=3:4\x7d".toList, "Full years.".toList, "[<NUMBER>y]".toList,
    "Where:".toList, "y = year".toList]

def ageSchema : Schema :=
  (({} : Schema).addText ageGrammar).1

def wideSchema : Schema :=
  (({} : Schema).addText wideGrammar).1

def ageRequests : List Request :=
  [.load "age".toList ageGrammar]

/-- The primitive is copied with the matcher of its first check, before the second schema. -/
def wideRequests : List Request :=
  [.load "age".toList ageGrammar,
    .validate (.declared "age".toList "AGE".toList) "age".toList "7y".toList,
    .copyPrimitive (.declared "age".toList "AGE".toList) "kept".toList,
    .load "wide".toList wideGrammar]

theorem mem_of_names {primitive : Primitive} {name definition : Text}
    {components : List Component} (names : primitive.Names name)
    (listed : primitive.alternatives.definitions = [definition])
    (read : Component.ofDefinition definition = .ok components) :
    ⟨.primitive, name⟩ ∈ components := by
  obtain ⟨other, member, parts, readOther, inside⟩ := names
  rw [listed, List.mem_singleton] at member
  subst member
  exact Except.ok.inj (readOther.symm.trans read) ▸ inside

theorem agreeOn_reaches_age :
    AgreeOn ageSchema wideSchema (ageSchema.Reaches (referring "AGE" "<YEARS>")) := by
  have closed : ageSchema.Closed (· ∈ ["YEARS".toList, "NUMBER".toList]) := by
    intro name target within found further mentions
    rcases List.mem_pair.mp within with rfl | rfl
    · have years : ageSchema.primitive? "YEARS".toList =
          some ⟨"YEARS".toList, 1, 4, [], none, .ofText "<NUMBER>y".toList⟩ := by decide +kernel
      cases Option.some.inj (found.symm.trans years)
      have member := @mem_of_names _ further "<NUMBER>y".toList
        [⟨.primitive, "NUMBER".toList⟩, ⟨.literal, "y".toList⟩] mentions.names
        (by decide +kernel) (by decide +kernel)
      have number : further = "NUMBER".toList := by simpa using member
      exact List.mem_pair.mpr (.inr number)
    · have number : ageSchema.primitive? "NUMBER".toList = none := by decide +kernel
      exact absurd (found.symm.trans number) (by simp)
  intro name reached
  have within := reached.within closed fun further named => by
    have member := @mem_of_names _ further "<YEARS>".toList [⟨.primitive, "YEARS".toList⟩] named
      (by decide +kernel) (by decide +kernel)
    have years : further = "YEARS".toList := by simpa using member
    exact List.mem_pair.mpr (.inl years)
  rcases List.mem_pair.mp within with rfl | rfl <;> decide +kernel

theorem results_age :
    ageSchema.depthLimit = wideSchema.depthLimit ∧
      AgreeOn ageSchema wideSchema (ageSchema.Reaches (referring "AGE" "<YEARS>")) ∧
      ageSchema ≠ wideSchema ∧
      wideSchema.validate .unlimited (referring "AGE" "<YEARS>") "12y".toList =
        .ok (some "<YEARS>".toList) ∧
      ((({} : Workspace).after .unlimited ageRequests).perform .unlimited
          (.validate (.declared "age".toList "AGE".toList) "age".toList "y".toList)).1 =
        ((({} : Workspace).after .unlimited wideRequests).perform .unlimited
          (.validate (.held "kept".toList) "wide".toList "y".toList)).1 := by
  have limit : ageSchema.depthLimit = wideSchema.depthLimit := by decide +kernel
  obtain ⟨-, verdicts, -, answers⟩ := results_congr .unlimited _ _ _ limit agreeOn_reaches_age
  have presents : (({} : Workspace).after .unlimited ageRequests).Presents
      (.declared "age".toList "AGE".toList) (referring "AGE" "<YEARS>") "age".toList ageSchema :=
    ⟨by decide +kernel, by decide +kernel⟩
  have shown : (({} : Workspace).after .unlimited wideRequests).Presents
      (.held "kept".toList) (referring "AGE" "<YEARS>") "wide".toList wideSchema :=
    ⟨by decide +kernel, by decide +kernel⟩
  have valid : ageSchema.validate .unlimited (referring "AGE" "<YEARS>") "12y".toList =
      .ok (some "<YEARS>".toList) := by decide +kernel
  exact ⟨limit, agreeOn_reaches_age, by decide +kernel, (verdicts _).symm.trans valid,
    answers _ _ _ _ _ _ _ presents shown⟩

end Schema

end GedcomGrammar
