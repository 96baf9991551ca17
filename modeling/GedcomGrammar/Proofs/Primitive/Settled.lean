/-
This file proves which primitives come back with their text, and which come back whole.
-/

import GedcomGrammar.Proofs.Element.Rereading

namespace GedcomGrammar

namespace Primitive

/-- The names of the terms stay distinct where each is cut at the first start of a separator. -/
def Settled (primitive : Primitive) : Prop :=
  ((primitive.terms.getD []).map Term.shortName).Nodup

theorem text_eq {primitive : Primitive} (noTerms : primitive.terms.getD [] = []) :
    primitive.text = withDescription ([primitive.headerText] ++ primitive.alternativesLines)
      primitive.description := by
  have lines := primitive.termLines_eq
  rw [if_pos noTerms] at lines
  have parts : primitive.parts = [primitive.headerText] ++ primitive.alternativesLines ++
      (if primitive.description = [] then [] else [primitive.description]) ++
        primitive.termLines := rfl
  rw [text, parts, lines, List.append_nil]
  rfl

theorem getLast?_text_iff {primitive : Primitive} (loaded : primitive.Loaded)
    (noTerms : primitive.terms.getD [] = []) :
    primitive.text.getLast? ≠ some '\n' ↔
      primitive.description.withoutFeedEnd = primitive.description := by
  rw [text_eq noTerms, alternativesLines]
  split
  · exact @getLast?_withDescription_iff [] _ _ (by simp [headerText]) loaded.header.noFeed
  · exact @getLast?_withDescription_iff [primitive.headerText] _ _ (by simp)
      loaded.alternatives.continues.noFeed

theorem reread_of_noTerms {primitive : Primitive} (noTerms : primitive.terms.getD [] = []) :
    primitive.reread =
      { primitive with description := primitive.description.withoutFeedEnd, terms := none } :=
  if_pos noTerms

theorem text_reread_iff_of_noTerms {primitive : Primitive} (loaded : primitive.Loaded)
    (noTerms : primitive.terms.getD [] = []) :
    primitive.reread.text = primitive.text ↔ primitive.text.getLast? ≠ some '\n' := by
  have again : primitive.reread.text =
      withDescription ([primitive.headerText] ++ primitive.alternativesLines)
        primitive.description.withoutFeedEnd := by
    rw [reread_of_noTerms noTerms]
    exact text_eq rfl
  rw [getLast?_text_iff loaded noTerms, again, text_eq noTerms]
  exact withDescription_inj (by simp)

theorem terms_reread {primitive : Primitive} (written : primitive.terms.getD [] ≠ []) :
    primitive.reread = { primitive with
      terms := some (Keyed.ofList Term.name ((primitive.terms.getD []).map Term.reread)) } :=
  if_neg written

theorem loaded_of_mem_terms {primitive : Primitive} (loaded : primitive.Loaded) {term : Term}
    (member : term ∈ primitive.terms.getD []) : term.Loaded := by
  cases opened : primitive.terms with
  | none => simp [opened] at member
  | some terms =>
      rw [opened, Option.getD_some] at member
      exact (loaded.terms terms opened).each term member

theorem map_name_reread {primitive : Primitive} (loaded : primitive.Loaded) :
    ((primitive.terms.getD []).map Term.reread).map Term.name =
      (primitive.terms.getD []).map Term.shortName := by
  rw [List.map_map]
  exact List.map_congr_left fun term member =>
    Term.name_reread (loaded_of_mem_terms loaded member)

theorem length_body (primitive : Primitive) :
    primitive.body.length = primitive.alternativesLines.length +
      (descriptionLines primitive.description).length +
        if primitive.terms.getD [] = [] then 0 else (primitive.terms.getD []).length + 1 := by
  rw [body, List.length_append, List.length_append, termLines_eq]
  split <;> simp

/-- Terms that take the place of others leave fewer lines. -/
theorem settled_of_text_reread {primitive : Primitive} (loaded : primitive.Loaded)
    (written : primitive.terms.getD [] ≠ []) (same : primitive.reread.text = primitive.text) :
    primitive.Settled := by
  have loadedAgain : primitive.reread.Loaded :=
    (@Element.Loaded.reread (.primitive primitive) _ loaded (Element.reread_primitive loaded)).1
  have bodies : primitive.reread.body = primitive.body :=
    @Element.Loaded.body_eq_of_text (.primitive primitive) (.primitive primitive.reread) loaded
      loadedAgain same
  have listed : primitive.reread.alternativesLines = primitive.alternativesLines := by
    rw [terms_reread written]
    rfl
  have described : primitive.reread.description = primitive.description := by
    rw [terms_reread written]
  have terms : primitive.reread.terms.getD [] =
      Keyed.ofList Term.name ((primitive.terms.getD []).map Term.reread) := by
    rw [terms_reread written]
    rfl
  have lengths := congrArg List.length bodies
  rw [length_body, length_body, if_neg written, listed, described, terms] at lengths
  have full : (Keyed.ofList Term.name ((primitive.terms.getD []).map Term.reread)).length =
      ((primitive.terms.getD []).map Term.reread).length := by
    rw [List.length_map]
    by_cases gone : Keyed.ofList Term.name ((primitive.terms.getD []).map Term.reread) = []
    · rw [if_pos gone] at lengths
      omega
    · rw [if_neg gone] at lengths
      omega
  rw [Settled, ← map_name_reread loaded]
  exact Keyed.length_ofList_iff.mp full

theorem text_reread_of_settled {primitive : Primitive} (loaded : primitive.Loaded)
    (written : primitive.terms.getD [] ≠ []) (settled : primitive.Settled) :
    primitive.reread.text = primitive.text := by
  rw [Settled, ← map_name_reread loaded] at settled
  have again := terms_reread written
  have kept : ((primitive.terms.getD []).map Term.reread).map Term.text =
      (primitive.terms.getD []).map Term.text := by
    rw [List.map_map]
    exact List.map_congr_left fun term _ => Term.text_reread term
  have lines : primitive.reread.termLines = primitive.termLines := by
    rw [termLines_eq, termLines_eq, again, Option.getD_some,
      Keyed.ofList_of_nodup settled, kept, if_neg written, if_neg (by simpa using written)]
  have parts (other : Primitive) : other.parts = [other.headerText] ++ other.alternativesLines ++
    (if other.description = [] then [] else [other.description]) ++ other.termLines := rfl
  rw [text, text, parts, parts, lines, again]
  rfl

theorem text_reread_iff_of_terms {primitive : Primitive} (loaded : primitive.Loaded)
    (written : primitive.terms.getD [] ≠ []) :
    primitive.reread.text = primitive.text ↔ primitive.Settled :=
  ⟨settled_of_text_reread loaded written, text_reread_of_settled loaded written⟩

end Primitive

theorem Term.reread_eq_self_iff {term : Term} (loaded : term.Loaded) :
    term.reread = term ↔ ¬[' ', '='] <:+ term.name := by
  constructor
  · intro same ending
    obtain ⟨name, opened⟩ := Option.isSome_iff_exists.mp (Text.isSome_dropTail?_iff.mpr ending)
    have cut := name_reread loaded
    rw [same, shortName, opened, Option.getD_some] at cut
    rw [Text.dropTail?_eq_some_iff, cut] at opened
    simp at opened
  · intro closed
    rw [← Text.isSome_dropTail?_iff, Option.not_isSome_iff_eq_none] at closed
    rw [reread_eq loaded, closed]

namespace Primitive

/-- A written list of terms has terms, and none of their names loses its end. -/
def Faithful (primitive : Primitive) : Prop :=
  primitive.terms ≠ some [] ∧
    ∀ terms, primitive.terms = some terms → ∀ term ∈ terms, ¬[' ', '='] <:+ term.name

theorem reread_eq_self_of_terms_iff {primitive : Primitive} {terms : List Term}
    (loaded : primitive.Loaded) (opened : primitive.terms = some terms) (nonempty : terms ≠ []) :
    primitive.reread = primitive ↔ ∀ term ∈ terms, term.reread = term := by
  have each : ∀ term ∈ terms, term.Loaded := (loaded.terms terms opened).each
  have written : primitive.terms.getD [] ≠ [] := by rwa [opened]
  have again := terms_reread written
  rw [opened, Option.getD_some] at again
  constructor
  · intro same
    have settled : (terms.map Term.reread).map Term.name |>.Nodup := by
      have distinct := (text_reread_iff_of_terms loaded written).mp (congrArg text same)
      rwa [Settled, ← map_name_reread loaded, opened] at distinct
    rw [Keyed.ofList_of_nodup settled] at again
    have kept := congrArg Primitive.terms (again.symm.trans same)
    rw [opened, Option.some.injEq] at kept
    exact List.map_inj_left.mp (kept.trans (List.map_id terms).symm)
  · intro same
    have kept : terms.map Term.reread = terms :=
      (List.map_congr_left same).trans (List.map_id terms)
    rw [again, kept, Keyed.ofList_of_nodup (loaded.terms terms opened).distinct, ← opened]

theorem reread_eq_self_iff {primitive : Primitive} (loaded : primitive.Loaded) :
    primitive.reread = primitive ↔
      primitive.text.getLast? ≠ some '\n' ∧ primitive.Faithful := by
  cases opened : primitive.terms with
  | none =>
      have noTerms : primitive.terms.getD [] = [] := by rw [opened]; rfl
      have faithful : primitive.Faithful := by
        rw [Faithful, opened]
        exact ⟨by simp, fun _ none => absurd none (by simp)⟩
      rw [reread_of_noTerms noTerms, getLast?_text_iff loaded noTerms]
      refine ⟨fun same => ⟨congrArg Primitive.description same, faithful⟩, fun ⟨kept, _⟩ => ?_⟩
      rw [kept, ← opened]
  | some terms =>
      by_cases empty : terms = []
      · have noTerms : primitive.terms.getD [] = [] := by rw [opened, empty]; rfl
        have lost : ¬primitive.Faithful := fun faithful => faithful.1 (by rw [opened, empty])
        refine iff_of_false (fun same => ?_) fun ⟨_, faithful⟩ => lost faithful
        rw [reread_of_noTerms noTerms] at same
        exact absurd (congrArg Primitive.terms same) (by simp [opened])
      · have written : primitive.terms.getD [] ≠ [] := by rwa [opened]
        have last : (Element.primitive primitive).text.getLast? ≠ some '\n' :=
          Element.Loaded.getLast?_text loaded (primitive.getLast?_termLines written)
        have each : ∀ term ∈ terms, term.Loaded := (loaded.terms terms opened).each
        rw [reread_eq_self_of_terms_iff loaded opened empty, Faithful, opened]
        constructor
        · intro same
          refine ⟨last, by simpa using empty, fun others same' term member => ?_⟩
          rw [Option.some.injEq] at same'
          rw [← same'] at member
          exact (Term.reread_eq_self_iff (each term member)).mp (same term member)
        · rintro ⟨_, _, closed⟩ term member
          exact (Term.reread_eq_self_iff (each term member)).mpr (closed terms rfl term member)

end Primitive

end GedcomGrammar
