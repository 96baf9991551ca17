/-
This file proves what a primitive holds after any lines.
-/

import GedcomGrammar.Proofs.Keyed.Insertions
import GedcomGrammar.Proofs.Primitive.Rereading

namespace GedcomGrammar

namespace Term

/-- To collect terms is to insert them one by one. -/
theorem collect_eq (terms : List Term) : collect terms = Keyed.ofList name terms := by
  have listed := Keyed.filterMap_find? (Keyed.nodup_ofList name terms)
  rw [Keyed.map_ofList] at listed
  rw [← listed]
  exact List.filterMap_congr fun wanted _ => (Keyed.find?_ofList name wanted terms).symm

theorem collect_concat (terms : List Term) (term : Term) :
    collect (terms ++ [term]) = Keyed.insert name term (collect terms) := by
  rw [collect_eq, collect_eq, Keyed.ofList_concat]

theorem nodup_collect (terms : List Term) : ((collect terms).map name).Nodup := by
  rw [collect_eq]
  exact Keyed.nodup_ofList name terms

/-- Of the terms with a name the last one is found. -/
theorem find?_collect (wanted : Text) (terms : List Term) :
    Keyed.find? name wanted (collect terms) = latest? wanted terms := by
  rw [collect_eq]
  exact Keyed.find?_ofList name wanted terms

end Term

namespace Primitive

/-- A line lists alternatives exactly if it starts with a bracket. -/
theorem alternatives?_eq (line : Text) :
    alternatives? line =
      if listsAlternatives line then some (.ofText (unbracketed line)) else none := by
  cases line with
  | nil => rfl
  | cons first rest =>
      by_cases opened : first = '['
      · have body : (Text.dropTail? [']'] rest).getD rest = unbracketed ('[' :: rest) := by
          unfold unbracketed
          split
          · rename_i last
            have closed : Text.dropTail? [']'] rest = some rest.dropLast :=
              Text.dropTail?_eq_some_iff.mpr (List.dropLast_append_getLast? ']' last).symm
            rw [closed, Option.getD_some, List.tail_cons]
          · rename_i unclosed
            have kept : Text.dropTail? [']'] rest = none := by
              rw [Option.eq_none_iff_forall_ne_some]
              intro front cut
              rw [Text.dropTail?_eq_some_iff] at cut
              exact unclosed (by rw [List.tail_cons, cut, List.getLast?_concat])
            rw [kept, Option.getD_none, List.tail_cons]
        rw [opened, alternatives?, body, listsAlternatives, List.head?_cons, if_pos (by simp)]
      · have unlisted : listsAlternatives (first :: rest) = false := by
          simpa [listsAlternatives] using opened
        rw [alternatives?_eq_none (by simpa using opened), unlisted, if_neg Bool.false_ne_true]

/-- The last list of alternatives replaces all before it. -/
theorem alternativesOf_concat (lines : List Text) (line : Text) :
    alternativesOf (lines ++ [line]) =
      if listsAlternatives line then .ofText (unbracketed line) else alternativesOf lines := by
  rw [alternativesOf, List.filter_append]
  cases listed : listsAlternatives line with
  | true => simp [listed]
  | false => simp [listed, alternativesOf]

/-- The description takes the lines above the terms. -/
theorem descriptionOf_concat (lines : List Text) (line : Text) :
    descriptionOf (lines ++ [line]) =
      if termsLine ∈ lines ++ [line] ∨ listsAlternatives line then descriptionOf lines
      else (descriptionOf lines).addLine line := by
  rw [descriptionOf, Text.takeWhile_ne_concat, List.filter_append]
  by_cases opened : termsLine ∈ lines ++ [line]
  · rw [if_pos opened, if_pos (.inl opened), List.filter_nil, List.append_nil, descriptionOf]
  · rw [if_neg opened]
    cases listed : listsAlternatives line with
    | true => simp [listed, descriptionOf]
    | false =>
        have taken : [line].filter (fun line => !listsAlternatives line) = [line] := by
          simp [listed]
        rw [taken, Text.paragraph_concat, if_neg (by simpa using opened), descriptionOf]

/-- Once they are opened, other lines are terms, unless they are blank or list alternatives. -/
theorem termsBehind_concat (lines : List Text) {line : Text} (other : line ≠ termsLine) :
    termsBehind (lines ++ [line]) =
      if listsAlternatives line ∨ line = [] then termsBehind lines
      else termsBehind lines ++ [.ofLine line] := by
  rw [termsBehind, List.reverse_append, List.reverse_singleton, List.singleton_append,
    List.takeWhile_cons_of_pos (by simpa using other), List.reverse_cons, List.filter_append,
    List.map_append]
  cases listed : listsAlternatives line with
  | true => simp [listed, termsBehind]
  | false => by_cases blank : line = [] <;> simp [listed, blank, termsBehind]

/-- A line that opens the terms drops those before it. -/
theorem termsOf_concat_termsLine (lines : List Text) :
    termsOf (lines ++ [termsLine]) = some [] := by
  have none : termsBehind (lines ++ [termsLine]) = [] := by
    simp [termsBehind]
  rw [termsOf, if_pos (by simp), none]
  rfl

/-- Once they are opened, the terms take one more. -/
theorem termsOf_concat (lines : List Text) {line : Text} (other : line ≠ termsLine) :
    termsOf (lines ++ [line]) =
      if listsAlternatives line ∨ line = [] then termsOf lines
      else (termsOf lines).map (Keyed.insert Term.name (.ofLine line)) := by
  have opened : termsLine ∈ lines ++ [line] ↔ termsLine ∈ lines := by simp [other.symm]
  rw [termsOf, termsOf, termsBehind_concat lines other, if_congr opened rfl rfl]
  by_cases skipped : listsAlternatives line ∨ line = []
  · rw [if_pos skipped, if_pos skipped]
  · rw [if_neg skipped, if_neg skipped, Term.collect_concat]
    split <;> rfl

namespace Contents

variable {header primitive : Primitive} {lines : List Text} {line : Text}

/-- The terms are missing exactly if no line opens them. -/
theorem terms_eq_none_iff (contents : Contents header lines primitive) :
    primitive.terms = none ↔ termsLine ∉ lines := by
  rw [contents.terms, termsOf]
  split <;> simp_all

/-- A list of alternatives changes nothing else. -/
theorem addLine_listed (contents : Contents header lines primitive)
    (listed : listsAlternatives line = true) :
    Contents header (lines ++ [line]) (primitive.addLine line) := by
  have other : line ≠ termsLine := by
    rintro rfl
    exact absurd listed (by decide)
  have taken : primitive.addLine line =
      { primitive with alternatives := .ofText (unbracketed line) } := by
    simp only [Primitive.addLine, alternatives?_eq, if_pos listed]
  rw [taken]
  refine { contents with alternatives := ?_, description := ?_, terms := ?_ }
  · rw [alternativesOf_concat, if_pos listed]
  · rw [descriptionOf_concat, if_pos (.inr listed), contents.description]
  · rw [termsOf_concat lines other, if_pos (.inl listed), contents.terms]

theorem alternatives_of_unlisted (contents : Contents header lines primitive)
    (unlisted : ¬listsAlternatives line = true) :
    primitive.alternatives = alternativesOf (lines ++ [line]) := by
  rw [alternativesOf_concat, if_neg unlisted, contents.alternatives]

theorem addLine_termsLine (contents : Contents header lines primitive) :
    Contents header (lines ++ [termsLine]) (primitive.addLine termsLine) :=
  { contents with
    alternatives := contents.alternatives_of_unlisted (by decide)
    description := by
      rw [descriptionOf_concat, if_pos (.inl (by simp)), ← contents.description]
      rfl
    terms := (termsOf_concat_termsLine lines).symm }

/-- Above the terms every other line lengthens the description. -/
theorem addLine_described (contents : Contents header lines primitive)
    (usual : IsDescription line) (unlisted : ¬listsAlternatives line = true)
    (noTerms : primitive.terms = none) :
    Contents header (lines ++ [line]) (primitive.addLine line) := by
  have absent : termsLine ∉ lines ++ [line] := by
    simpa [Ne.symm usual.2] using contents.terms_eq_none_iff.mp noTerms
  have taken := foldl_description noTerms (List.forall_mem_singleton.mpr usual)
  rw [List.foldl_cons, List.foldl_nil] at taken
  rw [taken]
  refine { contents with
    alternatives := contents.alternatives_of_unlisted unlisted, description := ?_, terms := ?_ }
  · rw [descriptionOf_concat, if_neg (not_or.mpr ⟨absent, unlisted⟩), contents.description]
    rfl
  · rw [termsOf_concat lines usual.2, ← contents.terms, noTerms]
    split <;> rfl

/-- Below the line that opens the terms every other line is a term, if it is not blank. -/
theorem addLine_term (contents : Contents header lines primitive) {terms : List Term}
    (usual : IsDescription line) (unlisted : ¬listsAlternatives line = true)
    (opened : primitive.terms = some terms) :
    Contents header (lines ++ [line]) (primitive.addLine line) := by
  have present : termsLine ∈ lines ++ [line] := by
    have below : ¬primitive.terms = none := by simp [opened]
    rw [contents.terms_eq_none_iff, not_not] at below
    exact List.mem_append_left _ below
  have description : primitive.description = descriptionOf (lines ++ [line]) := by
    rw [descriptionOf_concat, if_pos (.inl present), contents.description]
  have alternatives := contents.alternatives_of_unlisted unlisted
  have held : termsOf lines = some terms := by rw [← contents.terms, opened]
  by_cases blank : line = []
  · have taken : primitive.addLine line = primitive := by
      simp only [Primitive.addLine, alternatives?_eq_none usual.1, if_neg usual.2, opened,
        if_pos blank]
    rw [taken]
    refine { contents with alternatives, description, terms := ?_ }
    rw [termsOf_concat lines usual.2, if_pos (.inr blank), contents.terms]
  · have taken : primitive.addLine line =
        { primitive with terms := some (Keyed.insert Term.name (.ofLine line) terms) } := by
      simp only [Primitive.addLine, alternatives?_eq_none usual.1, if_neg usual.2, opened,
        if_neg blank]
    rw [taken]
    refine { contents with alternatives, description, terms := ?_ }
    rw [termsOf_concat lines usual.2, if_neg (not_or.mpr ⟨unlisted, blank⟩), held,
      Option.map_some]

/-- One more line leaves what all lines together leave. -/
theorem addLine (contents : Contents header lines primitive) (line : Text) :
    Contents header (lines ++ [line]) (primitive.addLine line) := by
  by_cases listed : listsAlternatives line = true
  · exact contents.addLine_listed listed
  · by_cases opens : line = termsLine
    · rw [opens]
      exact contents.addLine_termsLine
    · have usual : IsDescription line := ⟨by simpa [listsAlternatives] using listed, opens⟩
      cases opened : primitive.terms with
      | none => exact contents.addLine_described usual listed opened
      | some terms => exact contents.addLine_term usual listed opened

end Contents

/-- A header alone gives a label and sizes. -/
theorem contents_ofHeader {line : Text} {header : Primitive} (read : ofHeader line = .ok header) :
    Contents header [] header := by
  cases ofHeader_eq_iff.mp read with
  | declared _ _ => exact ⟨rfl, rfl, rfl, rfl, rfl, rfl⟩

/-- After any lines a primitive holds what they tell together. -/
theorem contents_foldl {header : Primitive} (start : Contents header [] header)
    (lines : List Text) : Contents header lines (lines.foldl addLine header) := by
  induction lines using List.reverseRecOn with
  | nil => exact start
  | append_singleton front line inductionHypothesis =>
      rw [List.foldl_append]
      exact inductionHypothesis.addLine line

theorem Contents.nodup_names {header primitive : Primitive} {lines : List Text}
    (contents : Contents header lines primitive) :
    ((primitive.terms.getD []).map Term.name).Nodup := by
  rw [contents.terms, termsOf]
  split
  · exact Term.nodup_collect (termsBehind lines)
  · exact List.nodup_nil

theorem Contents.gloss?_eq {header primitive : Primitive} {lines : List Text}
    (contents : Contents header lines primitive) (name : Text) :
    primitive.gloss? name =
      if termsLine ∈ lines then (Term.latest? name (termsBehind lines)).map Term.gloss
      else none := by
  rw [gloss?, contents.terms, termsOf]
  split
  · rw [Option.getD_some, Term.find?_collect]
  · rfl

/--
A primitive that starts from a header holds what its lines tell together: the last list of
alternatives, the description above the terms, and the last gloss of every name.
-/
theorem contents_of_lines {line : Text} {header : Primitive} (read : ofHeader line = .ok header)
    (lines : List Text) :
    Contents header lines (lines.foldl addLine header) ∧
      (((lines.foldl addLine header).terms.getD []).map Term.name).Nodup ∧
        ∀ name, (lines.foldl addLine header).gloss? name =
          if termsLine ∈ lines then (Term.latest? name (termsBehind lines)).map Term.gloss
          else none := by
  have contents := contents_foldl (contents_ofHeader read) lines
  exact ⟨contents, contents.nodup_names, contents.gloss?_eq⟩

/-- Lists of alternatives and of terms that are written twice, with blank lines in all places. -/
def sexLines : List Text :=
  ["", "[X]", "A code.", "", "[M|[F]]", "Of a person.", "Where:", "M = Mister", "X", "Where:",
    "M = Man", "", "F = Female", "[M|F", "M = Male = 1"].map String.toList

theorem contents_of_sexLines :
    let sex : Primitive := { label := "SEX".toList, sizeMin := 1, sizeMax := 7 }
    ofHeader "SEX:= \x7bSize=1:7\x7d".toList = .ok sex ∧
      Contents sex sexLines (sexLines.foldl addLine sex) ∧
        (((sexLines.foldl addLine sex).terms.getD []).map Term.name).Nodup ∧
          ∀ name, (sexLines.foldl addLine sex).gloss? name =
            if termsLine ∈ sexLines then (Term.latest? name (termsBehind sexLines)).map Term.gloss
            else none := by
  intro sex
  have read : ofHeader "SEX:= \x7bSize=1:7\x7d".toList = .ok sex := by decide +kernel
  exact ⟨read, contents_of_lines read sexLines⟩

example :
    alternativesOf sexLines = .ofText "M|F".toList ∧
      descriptionOf sexLines = "A code.\n\nOf a person.".toList ∧
        termsOf sexLines =
          some [⟨"M".toList, "Male = 1".toList⟩, ⟨"F".toList, "Female".toList⟩] := by
  decide +kernel

end Primitive

end GedcomGrammar
