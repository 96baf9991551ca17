/-
This file proves what lines change in an edition.
-/

import GedcomGrammar.Proofs.Schema.Blocks
import GedcomGrammar.Proofs.Session.Alike
import GedcomGrammar.Workspace

namespace GedcomGrammar

namespace Edition

theorem addLine_schema (edition : Edition) (clock : Nat) (line : Text) :
    ((edition.addLine clock line).1.schema, (edition.addLine clock line).2) =
      edition.schema.addLine line :=
  rfl

/-- The schema of an edition takes lines like any schema. -/
theorem addLines_schema (edition : Edition) (clock number : Nat) (lines : List Text) :
    ((edition.addLines clock number lines).1.1.schema,
        (edition.addLines clock number lines).2) =
      edition.schema.addLines number lines := by
  induction lines generalizing edition clock number with
  | nil => rfl
  | cons line rest inductionHypothesis =>
      have taken := edition.addLine_schema clock line
      rw [addLines, Schema.addLines, ← taken]
      rcases edition.addLine clock line with ⟨extended, _ | error⟩
      · exact inductionHypothesis extended (tick clock line) (number + 1)
      · rfl

theorem addText_schema (edition : Edition) (clock : Nat) (text : Text) :
    ((edition.addText clock text).1.1.schema, (edition.addText clock text).2) =
      edition.schema.addText text := by
  have taken := edition.close.addLines_schema clock 1 text.lines
  have closed : edition.close.schema = edition.schema.close := rfl
  rw [addText, Schema.addText, ← closed, ← taken]
  rcases edition.close.addLines clock 1 text.lines with ⟨⟨extended, after⟩, _ | error⟩
  · rfl
  · rfl

end Edition

namespace Schema

theorem primitive?_insert_of_ne {schema : Schema} {element : Element} {label : Text}
    (different : element.key ≠ (.primitive, label)) :
    (schema.insert element).primitive? label = schema.primitive? label := by
  have found : (schema.insert element).find? (.primitive, label) =
      schema.find? (.primitive, label) :=
    Keyed.find?_insert_of_ne Element.key element schema.elements _ different
  rw [primitive?, primitive?, found]

/-- The alternatives of every primitive of the later schema are those of the earlier one. -/
def KeepsAlternatives (label : Text) (before after : Schema) : Prop :=
  ∀ primitive, after.primitive? label = some primitive →
    ∃ old, before.primitive? label = some old ∧ old.alternatives = primitive.alternatives

namespace KeepsAlternatives

variable {label : Text}

theorem refl (schema : Schema) : KeepsAlternatives label schema schema :=
  fun primitive found => ⟨primitive, found, rfl⟩

theorem trans {first second third : Schema} (early : KeepsAlternatives label first second)
    (late : KeepsAlternatives label second third) : KeepsAlternatives label first third := by
  intro primitive found
  obtain ⟨middle, foundMiddle, sameMiddle⟩ := late primitive found
  obtain ⟨old, foundOld, sameOld⟩ := early middle foundMiddle
  exact ⟨old, foundOld, sameOld.trans sameMiddle⟩

theorem of_alike {before after : Schema} (alike : Alike before after) :
    KeepsAlternatives label before after := by
  intro primitive found
  rw [← alike.primitive?] at found
  exact ⟨primitive, found, rfl⟩

end KeepsAlternatives

theorem primitive?_insert_self (schema : Schema) (primitive : Primitive) :
    (schema.insert (.primitive primitive)).primitive? primitive.label = some primitive :=
  primitive?_eq_some_iff.mpr
    (Keyed.find?_insert_self Element.key (.primitive primitive) schema.elements)

theorem alternatives_addLine {primitive : Primitive} {line : Text}
    (unlisted : Primitive.alternatives? line = none) :
    (primitive.addLine line).alternatives = primitive.alternatives := by
  rw [Primitive.addLine, unlisted]
  dsimp only
  split
  · rfl
  · split
    · rfl
    · split <;> rfl

theorem KeepsAlternatives.insert_of_ne {schema : Schema} {element : Element} {label : Text}
    (different : element.key ≠ (.primitive, label)) :
    KeepsAlternatives label schema (schema.insert element) := by
  intro primitive declared
  rw [primitive?_insert_of_ne different] at declared
  exact ⟨primitive, declared, rfl⟩

/-- A line that lists no alternatives leaves those of the open element. -/
theorem keepsAlternatives_extend {schema extended : Schema} {line label : Text}
    (taken : schema.extend line = .ok extended)
    (unlisted : schema.opened = some (.primitive, label) →
      Primitive.alternatives? line = none) :
    KeepsAlternatives label schema extended := by
  obtain ⟨key, element, longer, opened, found, added, rfl⟩ := extend_eq_ok_iff.mp taken
  have same := key_of_find? found
  have kept := Element.key_addLine added
  by_cases own : element.key = (.primitive, label)
  · have none := unlisted (by rw [opened, ← same, own])
    intro primitive declared
    rw [← same, own] at found
    cases element with
    | tag content => exact absurd (congrArg Prod.fst own) ElementKind.noConfusion
    | struct content => exact absurd (congrArg Prod.fst own) ElementKind.noConfusion
    | primitive content =>
        refine ⟨content, primitive?_eq_some_iff.mpr found, ?_⟩
        have inserted : (schema.insert longer).find? longer.key = some longer :=
          Keyed.find?_insert_self Element.key longer schema.elements
        rw [primitive?_eq_some_iff, ← own, ← kept, inserted, ← Except.ok.inj added,
          Option.some.injEq, Element.primitive.injEq] at declared
        rw [← declared, alternatives_addLine none]
  · exact .insert_of_ne (by rw [kept]; exact own)

theorem keepsAlternatives_settleBlanks (schema : Schema) (label : Text) :
    KeepsAlternatives label schema schema.settleBlanks := by
  refine @settleBlanks_keeps schema (KeepsAlternatives label schema) (.refl schema) ?_
    fun held kept => kept.trans (.of_alike ⟨rfl, rfl⟩)
  intro held kept
  rcases held.extendBlank_cases with unchanged | taken
  · rwa [unchanged]
  · exact kept.trans (keepsAlternatives_extend taken fun _ => rfl)

theorem renewed?_of_ofHeader {schema : Schema} {line : Text} {primitive : Primitive}
    (header : Element.isHeader line.withoutLineEnd = true)
    (made : Element.ofHeader (Element.headerKind line.withoutLineEnd) line.withoutLineEnd =
      .ok (.primitive primitive)) :
    schema.renewed? line = some primitive.label := by
  rw [renewed?]
  split
  · rename_i blank
    rw [blank] at header
    exact absurd header (by decide)
  · rw [if_pos header, made]

theorem renewed?_of_alternatives? {schema : Schema} {line label : Text}
    {alternatives : Alternatives} (content : line.withoutLineEnd ≠ [])
    (noHeader : Element.isHeader line.withoutLineEnd = false)
    (takes : schema.opened = some (.primitive, label))
    (listed : Primitive.alternatives? line.withoutLineEnd = some alternatives) :
    schema.renewed? line = some label := by
  rw [renewed?]
  split
  · rename_i blank
    exact absurd blank content
  · rw [if_neg (ne_true_of_eq_false noHeader), takes, listed]

/-- Only the primitive that a line renews gets new alternatives from it. -/
theorem keepsAlternatives_addLine {schema : Schema} {line label : Text}
    (other : schema.renewed? line ≠ some label) :
    KeepsAlternatives label schema (schema.addLine line).1 := by
  have outcome := schema.outcome_addLine line
  generalize schema.addLine line = result at outcome ⊢
  cases outcome with
  | blank empty => exact .of_alike (.addBlank schema)
  | malformed error header unmade => exact .of_alike ⟨rfl, rfl⟩
  | declared element header made =>
      have apart : element.key ≠ (.primitive, label) := by
        intro same
        cases element with
        | primitive content =>
            have own : content.label = label := congrArg Prod.snd same
            exact other (by rw [renewed?_of_ofHeader header made, own])
        | tag content => exact absurd (congrArg Prod.fst same) ElementKind.noConfusion
        | struct content => exact absurd (congrArg Prod.fst same) ElementKind.noConfusion
      exact (KeepsAlternatives.insert_of_ne apart).trans (.of_alike ⟨rfl, rfl⟩)
  | refused error present noHeader untaken => exact schema.keepsAlternatives_settleBlanks label
  | extended longer present noHeader taken =>
      refine (schema.keepsAlternatives_settleBlanks label).trans ?_
      refine keepsAlternatives_extend taken fun takes => ?_
      rw [opened_settleBlanks] at takes
      rw [Option.eq_none_iff_forall_ne_some]
      intro alternatives listed
      exact other (renewed?_of_alternatives? present noHeader takes listed)

end Schema

namespace Edition

/-- Between two times an edition gets a stamp of that time, unless it defines what it did. -/
structure Ages (before : Edition) (start : Nat) (after : Edition) (finish : Nat) : Prop where
  time : start ≤ finish
  stamp : (after.stamp = before.stamp ∧ Schema.Alike before.schema after.schema) ∨
    start ≤ after.stamp ∧ after.stamp < finish

/-- An edition that takes lines keeps a matcher only for an alternative that it keeps. -/
structure Evolves (before : Edition) (start : Nat) (after : Edition) (finish : Nat) : Prop
    extends Ages before start after finish where
  matchers : ∀ kept ∈ after.matchers,
    kept ∈ before.matchers ∧ Schema.KeepsAlternatives kept.1 before.schema after.schema

namespace Evolves

variable {before after : Edition} {clock : Nat}

theorem refl (edition : Edition) (clock : Nat) : Evolves edition clock edition clock :=
  ⟨⟨le_rfl, .inl ⟨rfl, .refl _⟩⟩, fun _ member => ⟨member, .refl _⟩⟩

theorem trans {middle : Edition} {noon evening : Nat} (early : Evolves before clock middle noon)
    (late : Evolves middle noon after evening) : Evolves before clock after evening := by
  refine ⟨⟨early.time.trans late.time, ?_⟩, fun kept member => ?_⟩
  · rcases late.stamp with ⟨same, alike⟩ | ⟨least, most⟩
    · rcases early.stamp with ⟨sameEarly, alikeEarly⟩ | ⟨leastEarly, mostEarly⟩
      · exact .inl ⟨same.trans sameEarly, alikeEarly.trans alike⟩
      · right
        rw [same]
        exact ⟨leastEarly, mostEarly.trans_le late.time⟩
    · exact .inr ⟨early.time.trans least, most⟩
  · obtain ⟨inMiddle, keptLate⟩ := late.matchers kept member
    obtain ⟨inBefore, keptEarly⟩ := early.matchers kept inMiddle
    exact ⟨inBefore, keptEarly.trans keptLate⟩

theorem close (edition : Edition) (clock : Nat) : Evolves edition clock edition.close clock :=
  ⟨⟨le_rfl, .inl ⟨rfl, rfl, rfl⟩⟩, fun _ member => ⟨member, .of_alike ⟨rfl, rfl⟩⟩⟩

theorem addLine (edition : Edition) (clock : Nat) (line : Text) :
    Evolves edition clock (edition.addLine clock line).1 (tick clock line) := by
  refine ⟨⟨?_, ?_⟩, fun kept member => ?_⟩
  · unfold tick
    split <;> omega
  · by_cases blank : line.withoutLineEnd = []
    · left
      have added : edition.schema.addLine line = (edition.schema.addBlank, none) :=
        Schema.addLine_of_blank blank
      rw [← addLine_schema] at added
      refine ⟨if_pos blank, ?_⟩
      rw [(Prod.mk.inj added).1]
      exact .addBlank edition.schema
    · right
      have stamp : (edition.addLine clock line).1.stamp = clock := if_neg blank
      rw [stamp, tick, if_neg blank]
      omega
  · have remains := List.mem_filter.mp member
    exact ⟨remains.1, Schema.keepsAlternatives_addLine
      (fun renewed => of_decide_eq_true remains.2 renewed.symm)⟩

theorem addLines (edition : Edition) (clock number : Nat) (lines : List Text) :
    Evolves edition clock (edition.addLines clock number lines).1.1
      (edition.addLines clock number lines).1.2 := by
  induction lines generalizing edition clock number with
  | nil => exact refl edition clock
  | cons line rest inductionHypothesis =>
      have first := addLine edition clock line
      unfold Edition.addLines
      generalize edition.addLine clock line = taken at first ⊢
      obtain ⟨extended, error⟩ := taken
      cases error with
      | none => exact first.trans (inductionHypothesis extended (tick clock line) (number + 1))
      | some error => exact first

theorem addText (edition : Edition) (clock : Nat) (text : Text) :
    Evolves edition clock (edition.addText clock text).1.1 (edition.addText clock text).1.2 := by
  have lines := (close edition clock).trans (addLines edition.close clock 1 text.lines)
  unfold Edition.addText
  generalize edition.close.addLines clock 1 text.lines = taken at lines ⊢
  obtain ⟨⟨extended, after⟩, error⟩ := taken
  cases error with
  | none => exact lines.trans (close extended after)
  | some error => exact lines

end Evolves

end Edition

end GedcomGrammar
