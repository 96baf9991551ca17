/-
This file proves which elements come back with their text, and which come back whole.
-/

import GedcomGrammar.Proofs.Primitive.Settled
import GedcomGrammar.Proofs.Structure.Settled

namespace GedcomGrammar

namespace Element

/-- An element keeps its text if no blank line ends it and its parts keep theirs. -/
def Settled (element : Element) : Prop :=
  element.text.getLast? ≠ some '\n' ∧
    match element with
    | .primitive content => content.Settled
    | .tag _ => True
    | .struct content => content.Settled

theorem settled_primitive_iff {content : Primitive} (loaded : content.Loaded) :
    content.reread.text = content.text ↔ (Element.primitive content).Settled := by
  by_cases noTerms : content.terms.getD [] = []
  · rw [Primitive.text_reread_iff_of_noTerms loaded noTerms]
    have distinct : content.Settled := by
      rw [Primitive.Settled, noTerms]
      exact List.nodup_nil
    exact ⟨fun last => ⟨last, distinct⟩, fun settled => settled.1⟩
  · rw [Primitive.text_reread_iff_of_terms loaded noTerms]
    have last : (Element.primitive content).text.getLast? ≠ some '\n' :=
      Loaded.getLast?_text loaded (content.getLast?_termLines noTerms)
    exact ⟨fun distinct => ⟨last, distinct⟩, fun settled => settled.2⟩

theorem settled_struct_iff {content : Structure} (loaded : content.Loaded) :
    ((∀ row ∈ content.rows, row.Readable) ∧ content.reread.text = content.text) ↔
      (Element.struct content).Settled := by
  by_cases noRows : content.rows = []
  · rw [Structure.text_reread_iff_of_noRows loaded noRows]
    have shape : content.Settled := by
      constructor
      · exact fun _ present => absurd noRows present
      · rw [noRows]
        exact fun _ member => absurd member List.not_mem_nil
    refine ⟨fun ⟨_, last⟩ => ⟨last, shape⟩, fun settled => ⟨?_, settled.1⟩⟩
    rw [noRows]
    exact fun _ member => absurd member List.not_mem_nil
  · rw [Structure.settled_iff loaded noRows]
    have last : (Element.struct content).text.getLast? ≠ some '\n' :=
      Loaded.getLast?_text loaded (content.getLast?_body noRows)
    exact ⟨fun shape => ⟨last, shape⟩, fun settled => settled.2⟩

theorem readable_of_reread {content : Structure} {again : Element} (loaded : content.Loaded)
    (read : (Element.struct content).reread = .ok again) : ∀ row ∈ content.rows, row.Readable := by
  intro row member
  have present : content.rows ≠ [] := List.ne_nil_of_mem member
  have line : row.text ∈ content.body := by
    have found : row.text ∈ content.body.filter Structure.startsRow := by
      rw [Structure.filter_body loaded]
      exact List.mem_map_of_mem member
    exact List.mem_of_mem_filter found
  rw [reread, bare, body, withoutBlankEnd_eq_self (Structure.getLast?_body present),
    foldlM_struct] at read
  obtain ⟨result, made, -⟩ := map_eq_ok_iff.mp read
  exact Structure.readable_of_foldlM made line

/-- Exactly the settled elements read back with the same text. -/
theorem settled_iff {element : Element} (loaded : element.Loaded) :
    (∃ again, element.reread = .ok again ∧ again.text = element.text) ↔ element.Settled := by
  cases element with
  | primitive content =>
      rw [← settled_primitive_iff loaded, reread_primitive loaded]
      exact ⟨fun ⟨_, read, same⟩ => by rw [← Except.ok.inj read] at same; exact same,
        fun same => ⟨_, rfl, same⟩⟩
  | tag content =>
      have text := Tag.text_reread_iff loaded
      rw [reread_tag loaded]
      refine ⟨fun ⟨_, read, same⟩ => ⟨text.mp ?_, trivial⟩, fun settled =>
        ⟨_, rfl, text.mpr settled.1⟩⟩
      rw [← Except.ok.inj read] at same
      exact same
  | struct content =>
      rw [← settled_struct_iff loaded]
      constructor
      · intro rereads
        obtain ⟨again, read, same⟩ := rereads
        have readable := readable_of_reread loaded read
        rw [reread_struct loaded readable] at read
        rw [← Except.ok.inj read] at same
        exact ⟨readable, same⟩
      · intro stays
        obtain ⟨readable, same⟩ := stays
        exact ⟨_, reread_struct loaded readable, same⟩

/-- The text of an element shows everything that it has. -/
def Faithful (element : Element) : Prop :=
  element.text.getLast? ≠ some '\n' ∧
    match element with
    | .primitive content => content.Faithful
    | .tag _ => True
    | .struct content => content.Faithful

/-- Exactly the faithful elements read back as themselves. -/
theorem reread_eq_ok_self_iff {element : Element} (loaded : element.Loaded) :
    element.reread = .ok element ↔ element.Faithful := by
  cases element with
  | primitive content =>
      rw [reread_primitive loaded, Except.ok.injEq, Element.primitive.injEq,
        Primitive.reread_eq_self_iff loaded]
      rfl
  | tag content =>
      rw [reread_tag loaded, Except.ok.injEq, Element.tag.injEq, Faithful]
      have last : (Element.tag content).text = content.text := rfl
      rw [last, Tag.getLast?_text_iff loaded]
      exact ⟨fun same => ⟨congrArg Tag.description same, trivial⟩,
        fun ⟨kept, _⟩ => by rw [Tag.reread, kept]⟩
  | struct content =>
      by_cases noRows : content.rows = []
      · have readable : ∀ row ∈ content.rows, row.Readable := by
          rw [noRows]
          exact fun _ member => absurd member List.not_mem_nil
        rw [reread_struct loaded readable, Except.ok.injEq, Element.struct.injEq,
          Structure.reread_eq_self_of_noRows_iff loaded noRows]
        rfl
      · have last : (Element.struct content).text.getLast? ≠ some '\n' :=
          Loaded.getLast?_text loaded (Structure.getLast?_body noRows)
        have shape := Structure.reread_eq_self_of_rows_iff loaded noRows
        constructor
        · intro same
          have readable := readable_of_reread loaded same
          rw [reread_struct loaded readable, Except.ok.injEq, Element.struct.injEq] at same
          exact ⟨last, shape.mp ⟨readable, same⟩⟩
        · intro faithfulShape
          obtain ⟨_, faithful⟩ := faithfulShape
          obtain ⟨readable, same⟩ := shape.mpr faithful
          rw [reread_struct loaded readable, same]

end Element

end GedcomGrammar
