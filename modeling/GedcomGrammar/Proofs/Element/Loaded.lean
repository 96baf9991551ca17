/-
This file proves what elements are like that were read from lines.
-/

import GedcomGrammar.Proofs.Primitive.Loaded
import GedcomGrammar.Proofs.Results
import GedcomGrammar.Proofs.Structure.Loaded
import GedcomGrammar.Proofs.Tag.Rereading

namespace GedcomGrammar

namespace Element

/-- An element that was read from lines. -/
def Loaded : Element → Prop
  | .primitive content => content.Loaded
  | .tag content => content.Loaded
  | .struct content => content.Loaded

theorem loaded_ofHeader {line : Text} {element : Element} (noFeed : '\n' ∉ line)
    (read : ofHeader (headerKind line) line = .ok element) : element.Loaded := by
  cases kind : headerKind line with
  | primitive =>
      rw [kind] at read
      obtain ⟨content, made, rfl⟩ := map_eq_ok_iff.mp read
      exact Primitive.loaded_ofHeader made
  | tag =>
      rw [kind] at read
      obtain ⟨content, made, rfl⟩ := map_eq_ok_iff.mp read
      exact Tag.loaded_ofHeader made
  | struct =>
      rw [kind] at read
      obtain ⟨content, made, rfl⟩ := map_eq_ok_iff.mp read
      exact Structure.loaded_ofHeader noFeed kind made

/-- Each line of its text keeps an element loaded. -/
theorem Loaded.addLine {element extended : Element} {line : Text} (loaded : element.Loaded)
    (continues : Continuation line) (added : element.addLine line = .ok extended) :
    extended.Loaded := by
  cases element with
  | primitive content =>
      simp only [Element.addLine, Except.ok.injEq] at added
      exact added ▸ Primitive.Loaded.addLine loaded continues
  | tag content =>
      simp only [Element.addLine, Except.ok.injEq] at added
      exact added ▸ Tag.Loaded.addLine loaded continues
  | struct content =>
      obtain ⟨longer, made, rfl⟩ := map_eq_ok_iff.mp added
      exact Structure.Loaded.addLine loaded continues made

end Element

end GedcomGrammar
