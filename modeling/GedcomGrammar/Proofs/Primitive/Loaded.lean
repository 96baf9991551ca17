/-
This file proves what primitives are like that were read from lines.
-/

import GedcomGrammar.Proofs.Alternatives
import GedcomGrammar.Proofs.Element.Described
import GedcomGrammar.Proofs.Keyed
import GedcomGrammar.Proofs.Primitive.Heading

namespace GedcomGrammar

namespace Term

/-- A term of a line that lists no alternatives; the name ends at the first separator. -/
structure Loaded (term : Term) : Prop where
  continues : Continuation term.text
  head : term.name.head? ≠ some '['
  name : ¬separator <:+: term.name

theorem loaded_ofLine {line : Text} (continues : Continuation line)
    (head : line.head? ≠ some '[') : (ofLine line).Loaded := by
  unfold ofLine
  split
  · rename_i name gloss cut
    have whole := Text.eq_of_cut? cut
    refine ⟨?_, ?_, fun contained => ?_⟩
    · rw [whole] at continues
      exact continues
    · intro opened
      rw [whole] at head
      cases name with
      | nil => simp at opened
      | cons first rest => exact head (by simpa using opened)
    · exact Text.not_infix_of_cut? cut (by decide) (List.infix_append_of_infix_left contained)
  · rename_i cut
    refine ⟨⟨?_, ?_, fun marked => ?_⟩, head, (Text.cut?_eq_none_iff (by decide)).mp cut⟩
    · simpa [text, separator] using continues.noFeed
    · have kept := @Continuation.withoutLineEnd_concat (line ++ [' ', '=']) ' '
        (by decide) (by decide)
      simpa [text, separator] using kept
    · have split := (@Text.infix_append_cons_iff headerMark line ['=', ' '] ' '
        (by decide) (by decide)).mp
        (by simpa [text, separator] using marked)
      rcases split with yes | no
      · exact continues.noMark yes
      · exact absurd no (by decide)

end Term

namespace Alternatives

/-- Alternatives of a line that lists them have no bars inside. -/
structure Loaded (alternatives : Alternatives) : Prop where
  noBar : ∀ definition ∈ alternatives.definitions, '|' ∉ definition
  continues : Continuation ('[' :: alternatives.text ++ [']'])

theorem loaded_default : default.Loaded where
  noBar := by decide
  continues := ⟨by decide, by decide, by decide⟩

theorem Loaded.ofText_text {alternatives : Alternatives} (loaded : alternatives.Loaded) :
    ofText alternatives.text = alternatives :=
  ofText_text_eq_self_iff.mpr loaded.noBar

theorem loaded_ofText {body : Text} (continues : Continuation ('[' :: body ++ [']'])) :
    (ofText body).Loaded where
  noBar _ := notMem_of_mem_ofText
  continues := by
    rw [text_ofText]
    exact continues

end Alternatives

namespace Primitive

/-- A line of a description lists no alternatives and opens no terms. -/
def IsDescription (line : Text) : Prop :=
  line.head? ≠ some '[' ∧ line ≠ termsLine

/-- The terms of a list have names of their own. -/
structure TermsLoaded (terms : List Term) : Prop where
  distinct : (terms.map Term.name).Nodup
  each : ∀ term ∈ terms, term.Loaded

/-- A primitive that was read from lines. -/
structure Loaded (primitive : Primitive) : Prop where
  label : primitive.label ≠ []
  labelChars : ∀ char ∈ primitive.label, isLabelChar char = true
  range : primitive.sizeMin ≤ primitive.sizeMax
  limit : primitive.sizeMax < sizeLimit
  described : Described IsDescription primitive.description
  terms : ∀ terms, primitive.terms = some terms → TermsLoaded terms
  alternatives : primitive.alternatives.Loaded

theorem isDescription_nil : IsDescription [] :=
  ⟨by decide, by decide⟩

theorem loaded_ofHeader {line : Text} {primitive : Primitive}
    (read : ofHeader line = .ok primitive) : primitive.Loaded := by
  cases ofHeader_eq_iff.mp read with
  | declared heads ordered =>
      obtain ⟨nonempty, labelChars⟩ := isLabel_iff.mp heads.isLabel
      exact ⟨nonempty, List.all_eq_true.mp labelChars, ordered, heads.maxFits,
        .nil isDescription_nil, by simp, Alternatives.loaded_default⟩

theorem head?_ne_of_alternatives? {line : Text} (other : alternatives? line = none) :
    line.head? ≠ some '[' := by
  intro opened
  cases line with
  | nil => simp at opened
  | cons first rest =>
      rw [List.head?_cons, Option.some.injEq] at opened
      simp [opened, alternatives?] at other

/-- A line keeps a final bracket of its own, and one without it gets one. -/
theorem continues_alternatives {rest body : Text} (continues : Continuation ('[' :: rest))
    (found : (Text.dropTail? [']'] rest).getD rest = body) :
    Continuation ('[' :: body ++ [']']) := by
  have leads : body <+: rest := by
    cases dropped : Text.dropTail? [']'] rest with
    | none =>
        rw [dropped, Option.getD_none] at found
        rw [found]
    | some front =>
        rw [dropped, Option.getD_some] at found
        rw [Text.dropTail?_eq_some_iff, found] at dropped
        exact ⟨[']'], dropped.symm⟩
  have inside : '[' :: body <+: '[' :: rest := List.cons_prefix_cons.mpr ⟨rfl, leads⟩
  refine ⟨fun feed => ?_, ?_, fun marked => ?_⟩
  · rcases List.mem_append.mp feed with old | new
    · exact continues.noFeed (inside.subset old)
    · exact absurd new (by decide)
  · exact Continuation.withoutLineEnd_concat (by decide) (by decide)
  · rcases (Text.infix_append_cons_iff (by decide) (by decide)).mp marked with yes | no
    · exact continues.noMark (yes.trans inside.isInfix)
    · exact absurd no (by decide)

theorem TermsLoaded.insert {terms : List Term} {term : Term} (loaded : TermsLoaded terms)
    (added : term.Loaded) : TermsLoaded (Keyed.insert Term.name term terms) where
  distinct := Keyed.nodup_insert Term.name term loaded.distinct
  each other member := by
    rcases Keyed.mem_insert member with rfl | old
    · exact added
    · exact loaded.each other old

theorem Loaded.addLine {primitive : Primitive} {line : Text} (loaded : primitive.Loaded)
    (continues : Continuation line) : (primitive.addLine line).Loaded := by
  unfold Primitive.addLine
  split
  · rename_i listed
    refine { loaded with alternatives := ?_ }
    cases line with
    | nil => simp [alternatives?] at listed
    | cons first rest =>
        unfold alternatives? at listed
        split at listed
        · rename_i same
          simp only [List.cons.injEq] at same
          rw [Option.some.injEq] at listed
          rw [same.1, same.2] at continues
          rw [← listed]
          exact Alternatives.loaded_ofText (continues_alternatives continues rfl)
        · exact absurd listed (by simp)
  · rename_i other
    have head := head?_ne_of_alternatives? other
    split
    · refine { loaded with terms := fun terms same => ?_ }
      rw [Option.some.injEq] at same
      exact same ▸ ⟨List.nodup_nil, by simp⟩
    · rename_i notTerms
      split
      · exact { loaded with
          described := loaded.described.addLine continues ⟨head, notTerms⟩ }
      · rename_i terms opened
        split
        · exact loaded
        · refine { loaded with terms := fun extended same => ?_ }
          rw [Option.some.injEq] at same
          rw [← same]
          exact (loaded.terms terms opened).insert (Term.loaded_ofLine continues head)

end Primitive

end GedcomGrammar
