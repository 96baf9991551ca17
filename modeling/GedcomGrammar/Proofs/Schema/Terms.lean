/-
This file proves which terms come back when the text of a schema is read again.
-/

import GedcomGrammar.Proofs.Schema.RoundTrip

namespace GedcomGrammar

namespace Primitive

/-- No name of a term ends like the start of a separator. -/
def KeepsNames (primitive : Primitive) : Prop :=
  ∀ term ∈ primitive.terms.getD [], ¬[' ', '='] <:+ term.name

/-- Names that keep their ends come back in their order, each with its gloss. -/
theorem terms_reread_of_keepsNames {primitive : Primitive} (loaded : primitive.Loaded)
    (keeps : primitive.KeepsNames) (written : primitive.terms.getD [] ≠ []) :
    primitive.reread.terms = primitive.terms := by
  obtain ⟨terms, opened⟩ : ∃ terms, primitive.terms = some terms := by
    rw [← Option.ne_none_iff_exists']
    intro missing
    exact written (by rw [missing]; rfl)
  have again := congrArg Primitive.terms (terms_reread written)
  rw [KeepsNames, opened, Option.getD_some] at keeps
  rw [opened, Option.getD_some] at again
  have each : ∀ term ∈ terms, term.reread = term := fun term member =>
    (Term.reread_eq_self_iff ((loaded.terms terms opened).each term member)).mpr
      (keeps term member)
  have same : terms.map Term.reread = terms :=
    (List.map_congr_left each).trans (List.map_id terms)
  rw [again, same, Keyed.ofList_of_nodup (loaded.terms terms opened).distinct, opened]

/-- A list of terms that holds none is not written, so it is missing afterwards. -/
theorem terms_reread_eq {primitive : Primitive} (loaded : primitive.Loaded)
    (keeps : primitive.KeepsNames) :
    primitive.reread.terms = if primitive.terms = some [] then none else primitive.terms := by
  by_cases noTerms : primitive.terms.getD [] = []
  · have missing : primitive.reread.terms = none :=
      congrArg Primitive.terms (reread_of_noTerms noTerms)
    cases opened : primitive.terms with
    | none => rw [missing, if_neg (by simp)]
    | some terms =>
        rw [opened, Option.getD_some] at noTerms
        rw [missing, noTerms, if_pos rfl]
  · have listed : primitive.terms ≠ some [] := fun empty => noTerms (by rw [empty]; rfl)
    rw [if_neg listed, terms_reread_of_keepsNames loaded keeps noTerms]

/-- A missing list answers like one that holds no terms. -/
theorem gloss?_congr {left right : Primitive} (same : left.terms.getD [] = right.terms.getD [])
    (name : Text) : left.gloss? name = right.gloss? name := by
  rw [gloss?, gloss?, same]

end Primitive

namespace Schema

/-- What an element rereads as is found where the element was. -/
theorem exists_reread_of_find? {elements again : List Element} {key : Element.Key}
    {element : Element}
    (reread : List.Forall₂ (fun element other => element.reread = .ok other) elements again)
    (found : Keyed.find? Element.key key elements = some element) :
    ∃ other, Keyed.find? Element.key key again = some other ∧ element.reread = .ok other := by
  induction reread with
  | nil => exact absurd found (by simp [Keyed.find?])
  | @cons first second rest others read _ inductionHypothesis =>
      have keys : second.key = first.key := (Element.key_foldlM read).trans first.key_bare
      by_cases own : first.key = key
      · rw [Keyed.find?, List.find?_cons_of_pos (by simpa using own), Option.some.injEq] at found
        refine ⟨second, ?_, found ▸ read⟩
        rw [Keyed.find?, List.find?_cons_of_pos (by simpa [keys] using own)]
      · rw [Keyed.find?, List.find?_cons_of_neg (by simpa using own)] at found
        rw [Keyed.find?, List.find?_cons_of_neg (by simpa [keys] using own)]
        exact inductionHypothesis found

/-- A primitive of a schema that was read comes back as it rereads. -/
theorem primitive?_of_reread {schema again : Schema} {label : Text} {primitive : Primitive}
    (loaded : schema.Loaded) (reread : ofText schema.text = .ok again)
    (declared : schema.primitive? label = some primitive) :
    primitive.Loaded ∧ again.primitive? label = some primitive.reread := by
  have found := primitive?_eq_some_iff.mp declared
  have own : primitive.Loaded := loaded.each _ (mem_of_find? found)
  obtain ⟨others, rereads, rfl⟩ := (ofText_text_eq_ok_iff loaded).mp reread
  obtain ⟨other, present, read⟩ := exists_reread_of_find? rereads found
  rw [Element.reread_primitive own, Except.ok.injEq] at read
  exact ⟨own, primitive?_eq_some_iff.mpr (read ▸ present)⟩

/--
A primitive keeps its terms when the text of its schema is read again, but for an empty list,
which is missing afterwards, and every name keeps its gloss.
-/
theorem terms_of_reread {source label : Text} {schema again : Schema} {primitive : Primitive}
    (read : ofText source = .ok schema) (reread : ofText schema.text = .ok again)
    (declared : schema.primitive? label = some primitive) (keeps : primitive.KeepsNames) :
    ∃ reloaded, again.primitive? label = some reloaded ∧
      reloaded.terms = (if primitive.terms = some [] then none else primitive.terms) ∧
        ∀ name, reloaded.gloss? name = primitive.gloss? name := by
  obtain ⟨own, found⟩ := primitive?_of_reread (loaded_ofText read).1 reread declared
  have terms := Primitive.terms_reread_eq own keeps
  refine ⟨primitive.reread, found, terms, Primitive.gloss?_congr ?_⟩
  rw [terms]
  split
  · rename_i empty
    rw [empty]
    rfl
  · rfl

/-- An empty gloss, a separator in a gloss, and equals signs at the end of a name. -/
def codes : Primitive where
  label := "CODE".toList
  sizeMin := 1
  sizeMax := 1
  terms := some
    [⟨"M".toList, "Male = 1".toList⟩, ⟨"U".toList, []⟩, ⟨"x==".toList, "y".toList⟩]

theorem terms_of_codes :
    let source := "CODE:= \x7bSize=1\x7d\nWhere:\nM = 1\nU\nx== = y\nM = Male = 1".toList
    let schema : Schema := { elements := [.primitive codes] }
    ofText source = .ok schema ∧ ofText schema.text = .ok schema ∧
      schema.primitive? codes.label = some codes ∧ codes.KeepsNames ∧
        ∃ reloaded, schema.primitive? codes.label = some reloaded ∧
          reloaded.terms = (if codes.terms = some [] then none else codes.terms) ∧
            ∀ name, reloaded.gloss? name = codes.gloss? name := by
  intro source schema
  have read : ofText source = .ok schema := by decide +kernel
  have reread : ofText schema.text = .ok schema := by decide +kernel
  have declared : schema.primitive? codes.label = some codes := by decide +kernel
  have keeps : codes.KeepsNames := by unfold Primitive.KeepsNames; decide +kernel
  exact ⟨read, reread, declared, keeps, terms_of_reread read reread declared keeps⟩

/-- A line that opens the terms is lost when no term follows. -/
theorem opened_terms_missing :
    ∃ schema again primitive reloaded,
      ofText "CODE:= \x7bSize=1\x7d\nWhere:".toList = .ok schema ∧
        ofText schema.text = .ok again ∧
          schema.primitive? "CODE".toList = some primitive ∧
            again.primitive? "CODE".toList = some reloaded ∧
              primitive.terms = some [] ∧ reloaded.terms = none := by
  refine ⟨{ elements := [.primitive { codes with terms := some [] }] },
    { elements := [.primitive { codes with terms := none }] },
    { codes with terms := some [] }, { codes with terms := none }, ?_, ?_, ?_, ?_, rfl, rfl⟩
  · decide +kernel
  · decide +kernel
  · decide +kernel
  · decide +kernel

end Schema

end GedcomGrammar
