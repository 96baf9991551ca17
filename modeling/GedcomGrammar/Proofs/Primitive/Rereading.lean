/-
This file proves what a primitive becomes when its written lines are read again.
-/

import GedcomGrammar.Proofs.Element.BlankEnd
import GedcomGrammar.Proofs.Primitive.Written

namespace GedcomGrammar

namespace Term

/-- The term that its own line makes. -/
def reread (term : Term) : Term :=
  ofLine term.text

/-- The name up to the first place where a separator can start. -/
def shortName (term : Term) : Text :=
  (Text.dropTail? [' ', '='] term.name).getD term.name

/-- The first separator of a written term stands behind its name. -/
theorem first_separator {name : Text} (absent : ¬separator <:+: name)
    (notOpen : Text.dropTail? [' ', '='] name = none) : ¬separator <:+: name ++ [' ', '='] := by
  rintro ⟨before, after, same⟩
  rcases List.eq_nil_or_concat after with rfl | ⟨front, last, rfl⟩
  · have final := congrArg List.getLast? same
    simp [separator] at final
  · have whole : before ++ separator ++ front = name ++ [' '] :=
      List.append_inj_left' (show before ++ separator ++ front ++ [last] = name ++ [' '] ++ ['=']
        by simpa using same) rfl
    rcases List.eq_nil_or_concat front with rfl | ⟨inner, char, rfl⟩
    · have opened : before ++ [' ', '='] = name :=
        List.append_inj_left' (show before ++ [' ', '='] ++ [' '] = name ++ [' ']
          by simpa [separator] using whole) rfl
      rw [Text.dropTail?_eq_some_iff.mpr opened.symm] at notOpen
      exact absurd notOpen (by simp)
    · have inside : before ++ separator ++ inner = name :=
        List.append_inj_left' (show before ++ separator ++ inner ++ [char] = name ++ [' ']
          by simpa using whole) rfl
      exact absent ⟨before, inner, inside⟩

/-- A name that ends like the start of a separator is cut there, and its end goes to the gloss. -/
theorem reread_eq {term : Term} (loaded : term.Loaded) :
    term.reread = match Text.dropTail? [' ', '='] term.name with
      | none => term
      | some name => ⟨name, '=' :: ' ' :: term.gloss⟩ := by
  cases opened : Text.dropTail? [' ', '='] term.name with
  | none =>
      have cut := Text.cut?_append term.gloss (by decide)
        (first_separator loaded.name opened)
      rw [reread, ofLine, text, cut]
  | some name =>
      have whole := Text.dropTail?_eq_some_iff.mp opened
      have first := loaded.name
      rw [whole] at first
      have cut := @Text.cut?_append separator name ('=' :: ' ' :: term.gloss) (by decide) first
      have written : term.text = name ++ separator ++ '=' :: ' ' :: term.gloss := by
        simp [text, whole, separator]
      rw [reread, ofLine, written, cut]

theorem name_reread {term : Term} (loaded : term.Loaded) :
    term.reread.name = term.shortName := by
  rw [reread_eq loaded, shortName]
  cases Text.dropTail? [' ', '='] term.name <;> rfl

@[simp] theorem text_reread (term : Term) : term.reread.text = term.text := by
  have contained : separator <:+: term.text := ⟨term.name, term.gloss, rfl⟩
  obtain ⟨⟨name, gloss⟩, cut⟩ :=
    Option.isSome_iff_exists.mp ((Text.isSome_cut?_iff (by decide)).mpr contained)
  rw [reread, ofLine, cut]
  exact (Text.eq_of_cut? cut).symm

end Term

namespace Primitive

theorem alternatives?_text {alternatives : Alternatives} (loaded : alternatives.Loaded) :
    alternatives? ('[' :: alternatives.text ++ [']']) = some alternatives := by
  have inner : Text.dropTail? [']'] (alternatives.text ++ [']']) = some alternatives.text :=
    Text.dropTail?_eq_some_iff.mpr rfl
  rw [List.cons_append, alternatives?, inner, Option.getD_some, loaded.ofText_text]

/-- The line of the alternatives gives them back, and without that line they are the default. -/
theorem foldl_alternativesLines {primitive : Primitive} (loaded : primitive.Loaded)
    {start : Primitive} (default : start.alternatives = .default) :
    primitive.alternativesLines.foldl addLine start =
      { start with alternatives := primitive.alternatives } := by
  unfold alternativesLines
  split
  · rename_i same
    rw [Alternatives.isDefault_iff.mp same, ← default]
    rfl
  · simp only [List.foldl_cons, List.foldl_nil, addLine, alternatives?_text loaded.alternatives]

theorem alternatives?_eq_none {line : Text} (head : line.head? ≠ some '[') :
    alternatives? line = none := by
  unfold alternatives?
  split
  · exact absurd rfl head
  · rfl

theorem foldl_description {start : Primitive} (noTerms : start.terms = none) {lines : List Text}
    (usual : ∀ line ∈ lines, IsDescription line) :
    lines.foldl addLine start =
      { start with description := lines.foldl Text.addLine start.description } := by
  induction lines generalizing start with
  | nil => rfl
  | cons line rest inductionHypothesis =>
      have first := usual line List.mem_cons_self
      have added : start.addLine line =
          { start with description := start.description.addLine line } := by
        simp only [addLine, alternatives?_eq_none first.1, noTerms, if_neg first.2]
      have noTermsAfter : (start.addLine line).terms = none := by rw [added, noTerms]
      rw [List.foldl_cons, inductionHypothesis noTermsAfter
        fun other member => usual other (List.mem_cons_of_mem line member), added]
      rfl

theorem addLine_term {start : Primitive} {terms : List Term} {term : Term}
    (opened : start.terms = some terms) (loaded : term.Loaded) :
    start.addLine term.text =
      { start with terms := some (Keyed.insert Term.name term.reread terms) } := by
  have head : term.text.head? ≠ some '[' := by
    have first := loaded.head
    unfold Term.text Term.separator
    cases named : term.name with
    | nil => simp
    | cons char rest => simpa [named] using first
  have notTerms : term.text ≠ termsLine := by
    intro same
    have space : ' ' ∈ term.text := by simp [Term.text, Term.separator]
    rw [same] at space
    exact absurd space (by decide)
  have notBlank : term.text ≠ [] := by simp [Term.text, Term.separator]
  simp only [addLine, alternatives?_eq_none head, if_neg notTerms, opened, if_neg notBlank]
  rfl

theorem foldl_terms {start : Primitive} {held terms : List Term}
    (opened : start.terms = some held) (loaded : ∀ term ∈ terms, term.Loaded) :
    (terms.map Term.text).foldl addLine start =
      { start with terms := some ((terms.map Term.reread).foldl
          (fun held term => Keyed.insert Term.name term held) held) } := by
  induction terms generalizing start held with
  | nil => simp only [List.map_nil, List.foldl_nil, ← opened]
  | cons term rest inductionHypothesis =>
      have added := addLine_term opened (loaded term List.mem_cons_self)
      rw [List.map_cons, List.foldl_cons, added, inductionHypothesis rfl
        fun other member => loaded other (List.mem_cons_of_mem term member)]
      rfl

/-- Terms that are written make the description end in front of them, and are themselves reread. -/
def reread (primitive : Primitive) : Primitive :=
  if primitive.terms.getD [] = [] then
    { primitive with description := primitive.description.withoutFeedEnd, terms := none }
  else
    { primitive with
      terms := some (Keyed.ofList Term.name ((primitive.terms.getD []).map Term.reread)) }

theorem termLines_eq (primitive : Primitive) :
    primitive.termLines = if primitive.terms.getD [] = [] then []
      else termsLine :: (primitive.terms.getD []).map Term.text := by
  unfold termLines
  rcases primitive.terms with _ | _ | ⟨first, rest⟩ <;> rfl

theorem getLast?_alternativesLines (primitive : Primitive) :
    primitive.alternativesLines.getLast? ≠ some [] := by
  unfold alternativesLines
  split <;> simp

theorem getLast?_termLines (primitive : Primitive) (written : primitive.terms.getD [] ≠ []) :
    primitive.body.getLast? ≠ some [] := by
  rw [body, termLines_eq, if_neg written]
  obtain ⟨front, last, terms⟩ := List.eq_nil_or_concat (primitive.terms.getD [])
    |>.resolve_left written
  rw [terms, List.concat_eq_append, List.map_append, List.map_singleton, ← List.cons_append,
    ← List.append_assoc, List.getLast?_concat]
  simp [Term.text, Term.separator]

theorem foldl_body {primitive : Primitive} (loaded : primitive.Loaded) :
    (withoutBlankEnd primitive.body).foldl addLine
        { label := primitive.label, sizeMin := primitive.sizeMin, sizeMax := primitive.sizeMax } =
      primitive.reread := by
  have listed := @foldl_alternativesLines primitive loaded
    ⟨primitive.label, primitive.sizeMin, primitive.sizeMax, [], none, .default⟩ rfl
  by_cases noTerms : primitive.terms.getD [] = []
  · rw [body, termLines_eq, if_pos noTerms, List.append_nil,
      withoutBlankEnd_append _ primitive.getLast?_alternativesLines, List.foldl_append, listed,
      foldl_description rfl fun line member => loaded.described.usual_of_mem member,
      loaded.described.foldl_withoutBlankEnd, reread, if_pos noTerms]
  · rw [withoutBlankEnd_eq_self (primitive.getLast?_termLines noTerms), body, termLines_eq,
      if_neg noTerms, List.foldl_append, List.foldl_append, listed,
      foldl_description rfl fun line member => (loaded.described.continues member).2,
      foldl_descriptionLines loaded.described.started, List.foldl_cons]
    obtain ⟨terms, opened⟩ : ∃ terms, primitive.terms = some terms := by
      rw [← Option.ne_none_iff_exists']
      intro missing
      exact noTerms (by rw [missing]; rfl)
    have each : ∀ term ∈ primitive.terms.getD [], term.Loaded := by
      rw [opened]
      exact (loaded.terms terms opened).each
    exact (foldl_terms rfl each).trans (if_neg noTerms).symm

end Primitive

end GedcomGrammar
